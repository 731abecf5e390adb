import FurOS.Fs.Runs
import FurOS.Fs.Shape
import FurOS.Shell.System

/-! The outcomes of one command.

On a well-formed table and from a used directory no command leaves an array. What
each may do to the table is listed command by command: what `cmd_mkdir` and
`cmd_touch` make, they were allowed to make; what `cmd_nano` leaves is the file it
opened with the text that was typed. -/
namespace FurOS

section Looking
variable {t : Nodes} (wf : WellFormed t)
include wf

variable {c : NodeId} (hc : (t c).used = true)
include hc

/-- `cd` stays, or goes to a used directory. -/
theorem cmdCd_ok (hd : (t c).isDir = true) (args : List CStr) (uid : UInt16) :
    ∃ text cwd, cmdCd t (c.val : Int) args uid = .ok (text, cwd) ∧ UsedDir t cwd := by
  have hstay : UsedDir t (c.val : Int) := ⟨c, rfl, hc, hd⟩
  cases args with
  | nil => exact ⟨_, _, rfl, wf.usedDir_root⟩
  | cons path _ =>
    simp only [cmdCd, fsResolve_eq wf.navigable hc, Foundation.ok_bind]
    split
    · exact ⟨_, _, rfl, hstay⟩
    split
    · exact ⟨_, _, rfl, hstay⟩
    rename_i hdir _
    refine ⟨_, _, rfl, ?_⟩
    cases hr : resolve t c path.chars with
    | none => simp [hr] at hdir
    | some n =>
      have hn := resolve_used wf.navigable hc hr
      simp [hr, fsIsDir, usedNode_ofNat t n hn] at hdir
      exact ⟨n, rfl, hn, hdir⟩

end Looking

/-! ### Creating -/

/-- Where `resolve_parent_and_leaf` finds a parent, `resolve_parent_path` finds the same. -/
theorem resolveParentPath_of_leaf {t : Nodes} (wf : WellFormed t) {c : NodeId} (hc : (t c).used = true)
    {path : CStr} {p : Int} {leaf : Name}
    (h : resolveParentAndLeaf t (c.val : Int) path = .ok (some (p, leaf))) :
    resolveParentPath t (c.val : Int) path = .ok (some p) := by
  have he : path.chars ≠ [] := by
    intro he
    rw [resolveParentAndLeaf, if_pos he] at h
    cases h
  cases hk : lastSlash path.chars with
  | none =>
    rw [resolveParentAndLeaf, if_neg he, hk] at h
    obtain ⟨_, _, heq⟩ := Option.map_eq_some_iff.mp (Except.ok.inj h)
    cases heq
    rw [resolveParentPath, if_neg he, hk]
    rfl
  | some pos =>
    obtain ⟨hend, hlong, hfront, hpos, n, hn, hdir⟩ := resolveParentAndLeaf_split h hk
    rw [resolveParentPath, if_neg he, hk]
    dsimp only
    rw [if_neg hend]
    unfold frontParent at hfront
    split at hfront
    · rename_i h0
      cases hfront
      rw [if_pos h0]
      rfl
    · rename_i h0
      have hisdir : fsIsDir t p = true := by
        rw [fsResolve_eq wf.navigable hc] at hfront
        cases hr : resolve t c (path.take pos).chars with
        | none =>
          rw [hr] at hfront
          cases hfront
          exact absurd hpos (by decide)
        | some m =>
          rw [hr] at hfront
          cases hfront
          rw [toC_some, nodeIndex_ofNat] at hn
          cases hn
          rw [toC_some, fsIsDir, usedNode_ofNat t _ (resolve_used wf.navigable hc hr)]
          exact hdir
      rw [if_neg h0, if_neg (by omega), hfront, Foundation.ok_bind, if_pos ⟨hpos, hisdir⟩]
      rfl

theorem resolveParentPath_ok {t : Nodes} (wf : WellFormed t) {c : NodeId} (hc : (t c).used = true)
    (path : CStr) : ∃ o, resolveParentPath t (c.val : Int) path = .ok o := by
  unfold resolveParentPath
  split
  · exact ⟨_, rfl⟩
  split
  · exact ⟨_, rfl⟩
  split
  · exact ⟨_, rfl⟩
  split
  · exact ⟨_, rfl⟩
  split
  · exact ⟨_, rfl⟩
  · rw [fsResolve_eq wf.navigable hc, Foundation.ok_bind]
    exact ⟨_, rfl⟩

/-- The user may make a node where a path says. -/
def MayCreate (t : Nodes) (cwd : Int) (path : CStr) (uid : UInt16) : Prop :=
  ∀ p leaf, resolveParentAndLeaf t cwd path = .ok (some (p, leaf)) →
    fsCheckAccess t p uid (fsAccessWrite ||| fsAccessExec) = true

/-- Where `ensure_parent_writable` does not refuse, the user may make a node. -/
theorem ensureParentWritable_ok {t : Nodes} (wf : WellFormed t) {c : NodeId} (hc : (t c).used = true)
    (path : CStr) (uid : UInt16) :
    ∃ o, ensureParentWritable t (c.val : Int) path uid = .ok o ∧
      (o = none → MayCreate t (c.val : Int) path uid) := by
  obtain ⟨o, ho⟩ := resolveParentPath_ok wf hc path
  simp only [ensureParentWritable, ho, Foundation.ok_bind]
  cases o with
  | none => exact ⟨_, rfl, fun h => by cases h⟩
  | some parent =>
    refine ⟨_, rfl, fun hnone p leaf h => ?_⟩
    rw [resolveParentPath_of_leaf wf hc h] at ho
    cases ho
    by_contra hno
    rw [if_pos (by simpa using hno)] at hnone
    cases hnone

section Changing
variable {t : Nodes} (wf : WellFormed t) {c : NodeId} (hc : (t c).used = true) (hd : (t c).isDir = true)
include wf hc hd

/-- `mkdir` leaves the table alone, or makes a directory that the user may make. -/
theorem cmdMkdir_ok (args : List CStr) (uid : UInt16) :
    ∃ text t', cmdMkdir t (c.val : Int) args uid = .ok (text, t') ∧
      (t' = t ∨ ∃ path r, MayCreate t (c.val : Int) path uid ∧
        Creation t c path true uid fsDefaultDirMode r t') := by
  cases args with
  | nil => exact ⟨_, t, rfl, .inl rfl⟩
  | cons path _ =>
    simp only [cmdMkdir, fsResolve_eq wf.navigable hc, Foundation.ok_bind]
    split
    · exact ⟨_, t, rfl, .inl rfl⟩
    obtain ⟨o, ho, hmay⟩ := ensureParentWritable_ok wf hc path uid
    simp only [ho, Foundation.ok_bind]
    cases o with
    | some text => exact ⟨_, t, rfl, .inl rfl⟩
    | none =>
      obtain ⟨r, t', hop, hcr⟩ := fsMkdirAs_ok wf hc hd path uid fsDefaultDirMode
      simp only [hop, Foundation.ok_bind]
      exact ⟨_, t', rfl, .inr ⟨path, r, hmay rfl, hcr⟩⟩

/-- `touch` leaves the table alone, or makes a file that the user may make. -/
theorem cmdTouch_ok (args : List CStr) (uid : UInt16) :
    ∃ text t', cmdTouch t (c.val : Int) args uid = .ok (text, t') ∧
      (t' = t ∨ ∃ path r, MayCreate t (c.val : Int) path uid ∧
        Creation t c path false uid fsDefaultFileMode r t') := by
  cases args with
  | nil => exact ⟨_, t, rfl, .inl rfl⟩
  | cons path _ =>
    simp only [cmdTouch, fsResolve_eq wf.navigable hc, Foundation.ok_bind]
    split
    · exact ⟨_, t, rfl, .inl rfl⟩
    obtain ⟨o, ho, hmay⟩ := ensureParentWritable_ok wf hc path uid
    simp only [ho, Foundation.ok_bind]
    cases o with
    | some text => exact ⟨_, t, rfl, .inl rfl⟩
    | none =>
      obtain ⟨r, t', hop, hcr⟩ := fsTouchAs_ok wf hc hd path uid fsDefaultFileMode
      simp only [hop, Foundation.ok_bind]
      exact ⟨_, t', rfl, .inr ⟨path, r, hmay rfl, hcr⟩⟩

/-! ### Writing, removing, owners and modes -/

theorem cmdWrite_ok (path word : CStr) (words : List CStr) :
    ∃ text r t', cmdWrite t (c.val : Int) (path :: word :: words) = .ok (text, t') ∧
      Writing t c path (joinWords [] (word :: words)) r t' := by
  obtain ⟨r, t', hop, hw⟩ := fsWriteFile_ok wf hc hd path (joinWords [] (word :: words))
  simp only [cmdWrite, hop, Foundation.ok_bind]
  exact ⟨_, r, t', rfl, hw⟩

omit hd in
theorem cmdRm_ok (path : CStr) (rest : List CStr) :
    ∃ text r t', cmdRm t (c.val : Int) (path :: rest) = .ok (text, t') ∧ Removal t c path r t' := by
  obtain ⟨r, t', hop, hr⟩ := fsRemove_ok wf hc path
  simp only [cmdRm, hop, Foundation.ok_bind]
  exact ⟨_, r, t', rfl, hr⟩

omit hd in
theorem cmdChmod_ok (args : List CStr) (uid : UInt16) :
    ∃ text t', cmdChmod t (c.val : Int) args uid = .ok (text, t') ∧
      (t' = t ∨ ∃ node mode, t' = (fsSetMode t node mode).2) := by
  unfold cmdChmod
  split
  · split
    · exact ⟨_, t, rfl, .inl rfl⟩
    rw [fsResolve_eq wf.navigable hc, Foundation.ok_bind]
    split
    · exact ⟨_, t, rfl, .inl rfl⟩
    split
    · exact ⟨_, t, rfl, .inl rfl⟩
    · exact ⟨_, _, rfl, .inr ⟨_, _, rfl⟩⟩
  · exact ⟨_, t, rfl, .inl rfl⟩

omit hd in
theorem cmdChown_ok (args : List CStr) (uid : UInt16) :
    ∃ text t', cmdChown t (c.val : Int) args uid = .ok (text, t') ∧
      (t' = t ∨ ∃ node owner, t' = (fsSetOwner t node owner).2) := by
  unfold cmdChown
  split
  · split
    · exact ⟨_, t, rfl, .inl rfl⟩
    split
    · exact ⟨_, t, rfl, .inl rfl⟩
    rw [fsResolve_eq wf.navigable hc, Foundation.ok_bind]
    split
    · exact ⟨_, t, rfl, .inl rfl⟩
    · exact ⟨_, _, rfl, .inr ⟨_, _, rfl⟩⟩
  · exact ⟨_, t, rfl, .inl rfl⟩

end Changing

/-! ### The editor -/

/-- The buffer after the keys up to the first Ctrl+X. -/
def typed (buffer : NanoBuffer) : List UInt8 → NanoBuffer
  | [] => buffer
  | c :: keys =>
    if c = keyExit then buffer
    else
      match nanoKey buffer c with
      | none => typed buffer keys
      | some (buffer, _) => typed buffer keys

/-- The texts that the keys up to the first Ctrl+X save. -/
def saves (buffer : NanoBuffer) (dirty : Bool) : List UInt8 → List (List UInt8)
  | [] => []
  | c :: keys =>
    if c = keySave then buffer.chars :: saves buffer false keys
    else if c = keyExit then if dirty then [buffer.chars] else []
    else
      match nanoKey buffer c with
      | none => saves buffer dirty keys
      | some (buffer, _) => saves buffer true keys

/-- A file with texts saved to it one after another. -/
def saveAll (n : FsNode) (texts : List (List UInt8)) : FsNode := texts.foldl fillNode n

theorem nanoKey_save (buffer : NanoBuffer) : nanoKey buffer keySave = none := by
  have hprint : isPrintable keySave = false := by decide
  unfold nanoKey
  rw [if_neg (by decide), if_neg (by decide), dif_neg (by simp [hprint])]

/-- A buffer is never cut when it is saved. -/
theorem contents_fillNode_buffer (n : FsNode) (buffer : NanoBuffer) :
    contents (fillNode n buffer.chars) = buffer.chars := by
  have hfits := buffer.fits
  have hclamp : clampSize buffer.chars.length = buffer.chars.length := if_neg (by omega)
  rw [contents_fillNode, hclamp, List.take_length]

/-- Only the bytes of the file `e` have changed, and they still end inside their array. -/
structure Refilled (t : Nodes) (e : NodeId) (t' : Nodes) : Prop extends SameBut e t t' where
  contained : Contained (t e) → Contained (t' e)

namespace Refilled
variable {t t' t'' : Nodes} {e : NodeId}

theorem refl (t : Nodes) (e : NodeId) : Refilled t e t := ⟨.refl e t, id⟩

theorem trans (h : Refilled t e t') (h' : Refilled t' e t'') : Refilled t e t'' :=
  ⟨h.toSameBut.trans h'.toSameBut, fun hc => h'.contained (h.contained hc)⟩

theorem wellFormed (h : Refilled t e t') (wf : WellFormed t) (he : (t e).used = true) : WellFormed t' := by
  have heq : t' = Function.update t e (t' e) := by
    funext i
    by_cases hi : i = e
    · subst hi
      rw [Function.update_self]
    · rw [Function.update_of_ne hi, h.other i hi]
  rw [heq]
  exact wf.update e he _ ((h.used e).trans he) (h.isDir e) (h.field FsNode.parent (fun _ => rfl) e)
    (h.field FsNode.name (fun _ => rfl) e) (h.contained (wf.contained e he))

end Refilled

/-- Filling a file. -/
theorem refilled_fillNode (t : Nodes) (e : NodeId) (bytes : List UInt8) :
    Refilled t e (Function.update t e (fillNode (t e) bytes)) := by
  refine ⟨.update_self rfl, fun hc => ?_⟩
  rw [Function.update_self]
  exact fillNode_contained _ _ hc.mode

theorem refilled_saveAll (t : Nodes) (e : NodeId) (texts : List (List UInt8)) :
    Refilled t e (Function.update t e (saveAll (t e) texts)) := by
  induction texts generalizing t with
  | nil =>
    show Refilled t e (Function.update t e (t e))
    rw [Function.update_eq_self]
    exact .refl t e
  | cons text texts ih =>
    have hstep := ih (Function.update t e (fillNode (t e) text))
    rw [Function.update_self, Function.update_idem] at hstep
    exact (refilled_fillNode t e text).trans hstep

/-- What is saved last is what was typed, where the buffer held the file to start with. -/
theorem contents_saves {n : FsNode} {buffer : NanoBuffer} {dirty : Bool} {keys : List UInt8}
    (hclean : dirty = false → contents n = buffer.chars) (hexit : keyExit ∈ keys) :
    contents (saveAll n (saves buffer dirty keys)) = (typed buffer keys).chars := by
  induction keys generalizing n buffer dirty with
  | nil => cases hexit
  | cons k keys ih =>
    by_cases hk : k = keySave
    · subst hk
      have hrest : keyExit ∈ keys := List.mem_of_ne_of_mem (by decide) hexit
      rw [saves, if_pos rfl, typed, if_neg (by decide), nanoKey_save]
      exact ih (fun _ => contents_fillNode_buffer n buffer) hrest
    by_cases hx : k = keyExit
    · subst hx
      rw [saves, if_neg hk, if_pos rfl, typed, if_pos rfl]
      cases dirty with
      | true => exact contents_fillNode_buffer n buffer
      | false => exact hclean rfl
    have hrest : keyExit ∈ keys := List.mem_of_ne_of_mem (Ne.symm hx) hexit
    rw [saves, if_neg hk, if_neg hx, typed, if_neg hx]
    cases hkey : nanoKey buffer k with
    | none => exact ih hclean hrest
    | some x => exact ih (by simp) hrest

/-- The loop saves to its file, and ends at the first Ctrl+X. -/
theorem nanoLoop_saves {t : Nodes} {cwd : Int} {path : CStr} {e : NodeId}
    (hr : fsResolve t cwd path = .ok (e.val : Int)) (hfile : (t e).isDir = false) (buffer : NanoBuffer)
    (dirty : Bool) (keys : List UInt8) :
    ∃ text rest, nanoLoop t cwd path buffer dirty keys =
        .ok (Function.update t e (saveAll (t e) (saves buffer dirty keys)), text, rest) ∧
      (rest = none ↔ keyExit ∉ keys) := by
  induction keys generalizing t buffer dirty with
  | nil =>
    refine ⟨[], none, ?_, by simp⟩
    show Except.ok (t, [], none) = .ok (Function.update t e (t e), [], none)
    rw [Function.update_eq_self]
  | cons k keys ih =>
    have hsave := fsWriteFile_file hr hfile buffer.chars
    have hfill := refilled_fillNode t e buffer.chars
    by_cases hk : k = keySave
    · subst hk
      obtain ⟨text, rest, hop, hend⟩ := ih ((hfill.fsResolve cwd path).trans hr)
        ((hfill.isDir e).trans hfile) buffer false
      rw [Function.update_self, Function.update_idem] at hop
      refine ⟨println "\n[saved]" ++ text, rest, ?_, hend.trans ?_⟩
      · rw [nanoLoop, if_pos rfl, hsave, Foundation.ok_bind]
        dsimp only
        rw [hop, saves, if_pos rfl]
        rfl
      · have hne : keyExit ≠ keySave := by decide
        simp [hne]
    by_cases hx : k = keyExit
    · subst hx
      rw [nanoLoop, if_neg hk, if_pos rfl, saves, if_neg hk, if_pos rfl]
      cases dirty with
      | true =>
        refine ⟨println "\n[exit nano]", some keys, ?_, by simp⟩
        rw [if_pos rfl, hsave]
        rfl
      | false =>
        refine ⟨println "\n[exit nano]", some keys, ?_, by simp⟩
        show Except.ok (t, _, _) = .ok (Function.update t e (t e), _, _)
        rw [Function.update_eq_self]
    have hmem : keyExit ∉ k :: keys ↔ keyExit ∉ keys := by simp [Ne.symm hx]
    rw [nanoLoop, if_neg hk, if_neg hx, saves, if_neg hk, if_neg hx]
    cases hkey : nanoKey buffer k with
    | none =>
      obtain ⟨text, rest, hop, hend⟩ := ih hr hfile buffer dirty
      exact ⟨text, rest, hop, hend.trans hmem.symm⟩
    | some x =>
      obtain ⟨buffer', out⟩ := x
      obtain ⟨text, rest, hop, hend⟩ := ih hr hfile buffer' true
      refine ⟨out :: text, rest, ?_, hend.trans hmem.symm⟩
      dsimp only
      rw [hop]
      rfl

/-- What `nano` leaves: nothing but what `fs_touch` made, or the file with what was typed. -/
inductive Editing (t : Nodes) (c : NodeId) (path : CStr) (keys : List UInt8) :
    Nodes → Option (List UInt8) → Prop where
  | unopened {r : Int} {t₁ : Nodes} : Creation t c path false 0 fsDefaultFileMode r t₁ →
      (r = 0 → ∀ e, resolve t₁ c path.chars = some e → (t₁ e).isDir = true) →
      Editing t c path keys t₁ (some keys)
  | opened {e : NodeId} {t₁ t' : Nodes} {rest : Option (List UInt8)} :
      Creation t c path false 0 fsDefaultFileMode 0 t₁ →
      resolve t₁ c path.chars = some e → (t₁ e).isDir = false → Refilled t₁ e t' →
      (rest ≠ none →
        contents (t' e) = (typed (NanoBuffer.ofData (t₁ e).data (t₁ e).size) keys).chars) →
      Editing t c path keys t' rest

theorem Editing.wellFormed {t t' : Nodes} {c : NodeId} {path : CStr} {keys : List UInt8}
    {rest : Option (List UInt8)} (h : Editing t c path keys t' rest) (wf : WellFormed t)
    (hc : (t c).used = true) : WellFormed t' := by
  cases h with
  | unopened hcr _ => exact hcr.wellFormed wf
  | opened hcr hres _ hfill _ =>
    have wf₁ := hcr.wellFormed wf
    exact hfill.wellFormed wf₁ (resolve_used wf₁.navigable (hcr.used hc) hres)

/-- The buffer of a used file starts with its contents. -/
theorem ofData_chars {n : FsNode} (h : Contained n) :
    (NanoBuffer.ofData n.data n.size).chars = contents n := by
  have hclamp : clampSize n.size.toNat = n.size.toNat := if_neg (by have := h.size; omega)
  show (List.ofFn n.data).take (clampSize n.size.toNat) = _
  rw [hclamp]
  rfl

/-- Where `fs_touch` leaves a file at the path, `nano` edits it. -/
theorem cmdNano_opened {t t₁ : Nodes} {cwd : Int} {path : CStr} {e : NodeId}
    (htouch : fsTouch t cwd path = .ok (0, t₁)) (hr : fsResolve t₁ cwd path = .ok (e.val : Int))
    (hfile : (t₁ e).isDir = false) (args : List CStr) (keys : List UInt8) :
    ∃ text rest, cmdNano t cwd (path :: args) keys =
        .ok (Function.update t₁ e (saveAll (t₁ e) (saves (.ofData (t₁ e).data (t₁ e).size) false keys)),
          nanoHeader ++ nanoShow (.ofData (t₁ e).data (t₁ e).size) ++ text, rest) ∧
      (rest = none ↔ keyExit ∉ keys) := by
  have hread := fsReadFile_file hr hfile
  obtain ⟨text, rest, hloop, hend⟩ := nanoLoop_saves hr hfile (.ofData (t₁ e).data (t₁ e).size) false keys
  refine ⟨text, rest, ?_, hend⟩
  simp only [cmdNano, nanoOpen, htouch, hread, Foundation.ok_bind]
  show (nanoLoop t₁ cwd path (.ofData (t₁ e).data (t₁ e).size) false keys >>= _) = _
  rw [hloop]
  rfl

/-- Where it leaves none, `nano` reads no key. -/
theorem cmdNano_unopened {t t₁ : Nodes} {cwd : Int} {path : CStr} {r : Int}
    (htouch : fsTouch t cwd path = .ok (r, t₁)) (hr : r = 0 → fsReadFile t₁ cwd path = .ok none)
    (args : List CStr) (keys : List UInt8) :
    cmdNano t cwd (path :: args) keys = .ok (t₁, println "nano: unable to open file", some keys) := by
  simp only [cmdNano, htouch, Foundation.ok_bind]
  by_cases h0 : r = 0
  · rw [if_neg (by simpa using h0), hr h0]
    rfl
  · rw [if_pos h0]
    rfl

/-- `nano` opens the file that `fs_touch` leaves at its path, if it is one. -/
theorem cmdNano_ok {t : Nodes} (wf : WellFormed t) {c : NodeId} (hc : (t c).used = true)
    (hd : (t c).isDir = true) (path : CStr) (args : List CStr) (keys : List UInt8) :
    ∃ t' text rest, cmdNano t (c.val : Int) (path :: args) keys = .ok (t', text, rest) ∧
      Editing t c path keys t' rest := by
  obtain ⟨r, t₁, htouch, hcr⟩ := fsTouchAs_ok wf hc hd path 0 fsDefaultFileMode
  have wf₁ := hcr.wellFormed wf
  have hc₁ := (fsTouchAs_extends htouch).used hc
  have hread := fsReadFile_eq wf₁ hc₁ path
  have hunopened (hnone : r = 0 → ∀ e, resolve t₁ c path.chars = some e → (t₁ e).isDir = true) :
      ∃ t' text rest, cmdNano t (c.val : Int) (path :: args) keys = .ok (t', text, rest) ∧
        Editing t c path keys t' rest := by
    refine ⟨t₁, _, some keys, cmdNano_unopened htouch (fun h0 => ?_) args keys, .unopened hcr hnone⟩
    rw [hread]
    cases hres : resolve t₁ c path.chars with
    | none => rfl
    | some e =>
      rw [Option.bind_some, hnone h0 e hres, if_pos rfl]
  by_cases hr : r = 0
  · subst hr
    cases hres : resolve t₁ c path.chars with
    | none => exact hunopened fun _ e he => by rw [hres] at he; cases he
    | some e =>
      cases hdir : (t₁ e).isDir with
      | true =>
        refine hunopened fun _ e' he => ?_
        rw [hres] at he
        cases he
        exact hdir
      | false =>
        have hclean := ofData_chars (wf₁.contained e (resolve_used wf₁.navigable hc₁ hres))
        have hleads : fsResolve t₁ (c.val : Int) path = .ok (e.val : Int) := by
          rw [fsResolve_eq wf₁.navigable hc₁, hres, toC_some]
        obtain ⟨text, rest, hop, hend⟩ := cmdNano_opened htouch hleads hdir args keys
        refine ⟨_, _, rest, hop, .opened hcr hres hdir (refilled_saveAll t₁ e _) fun hsome => ?_⟩
        rw [Function.update_self]
        exact contents_saves (fun _ => hclean.symm) (by rwa [ne_eq, hend, not_not] at hsome)
  · exact hunopened fun h => absurd h hr

end FurOS
