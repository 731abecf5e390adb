import FurOS.Desktop.Documents
import FurOS.Fs.Printing

/-! Leaving the editor.

`run_kate` returns where the text was not modified since it was saved, or where the prompt is answered.
The prompt does not look at what `kate_save` returns, so F2 leaves also when nothing could be saved. -/
namespace FurOS.Desktop
open Installer (Key)

/-- A key of the editor. -/
def kateStep (key : Key) : Editor × System → Except Fault (Editor × System)
  | (.typing k, s) => kateKey k key s
  | (.asking k, s) => kateUnsavedPrompt k key s
  | (.closed, s) => return (.closed, s)

/-- The editor after these keys. -/
def runKate (e : Editor × System) : List Key → Except Fault (Editor × System)
  | [] => return e
  | key :: keys => do
    let e ← kateStep key e
    runKate e keys

def Editor.kate : Editor → Option Kate
  | .typing k => some k
  | .asking k => some k
  | .closed => none

theorem runKate_concat (e : Editor × System) (keys : List Key) (key : Key) :
    runKate e (keys ++ [key]) = runKate e keys >>= kateStep key := by
  induction keys generalizing e with
  | nil =>
    show (kateStep key e >>= fun e => pure e) = kateStep key e
    cases kateStep key e with
    | error f => rfl
    | ok e' => rfl
  | cons k keys ih =>
    rw [List.cons_append, runKate, runKate]
    cases kateStep k e with
    | error f => rfl
    | ok e' => exact ih e'

/-- All along these keys `kate_mod` is not set. -/
def NeverModified (e : Editor × System) (keys : List Key) : Prop :=
  ∀ pre, pre <+: keys → ∀ e' s' k, runKate e pre = .ok (e', s') → e'.kate = some k → k.modified = false

/-- The file of the editor's name holds its text. -/
def InFile (cwd : Int32) (k : Kate) (t : Nodes) : Prop :=
  ∃ f, HasFile t cwd.toInt k.fname.chars f ∧ contents (t f) = k.buf.chars

/-- The key that closes the editor loses nothing silently: it discards, there is nothing to lose, or the
text is in the file. -/
def NotLost (cwd : Int32) (s : System) (keys : List Key) (e : Editor) (key : Key) (s' : System) : Prop :=
  (∃ k, e = .asking k ∧ (key = 0x64 ∨ key = 0x44)) ∨
  NeverModified (.typing (.opened cwd.toInt), s) keys ∨
  ∃ k, e.kate = some k ∧ InFile cwd k s'.nodes

/-- F2 leaves the prompt with a save that succeeds. -/
def LeftSaved (e : Editor) (s : System) (key : Key) (s' : System) : Prop :=
  ∀ k, e = .asking k → key = keyF2 → ∃ k', kateSave k s = .ok (0, k', s')

/-! ### One key -/

/-- A key marks the text as modified or leaves it alone. -/
theorem Kate.edit_cases (k : Kate) (key : Key) :
    (k.edit key).modified = true ∨ (k.edit key).modified = k.modified ∧ (k.edit key).buf = k.buf := by
  have hinsert (c : UInt8) : (k.insert c).modified = true ∨ (k.insert c).modified = k.modified ∧
      (k.insert c).buf = k.buf := by
    unfold insert
    split
    · exact .inr ⟨rfl, rfl⟩
    · exact .inl rfl
  unfold edit
  split
  · unfold moveUp
    split <;> exact .inr ⟨rfl, rfl⟩
  split
  · unfold moveDown
    split <;> exact .inr ⟨rfl, rfl⟩
  split
  · exact .inr ⟨rfl, rfl⟩
  split
  · unfold moveRight
    split <;> exact .inr ⟨rfl, rfl⟩
  split
  · exact .inr ⟨rfl, rfl⟩
  split
  · exact .inr ⟨rfl, rfl⟩
  split
  · unfold backspace
    split
    · exact .inr ⟨rfl, rfl⟩
    · exact .inl rfl
  split
  · unfold delkey
    split
    · exact .inr ⟨rfl, rfl⟩
    · exact .inl rfl
  split
  · exact hinsert 10
  split
  · exact hinsert key.toUInt8
  · exact .inr ⟨rfl, rfl⟩

/-! ### Any keys -/

/-- What is known of an open editor after these keys. -/
structure Tracked (cwd : Int32) (s₀ : System) (keys : List Key) (k : Kate) (s : System) : Prop where
  node : k.node = -1
  cwdNd : k.cwdNd = cwd.toInt
  fname : k.fname = document
  accepts : Accepts s.nodes cwd.toInt document.chars ↔ Accepts s₀.nodes cwd.toInt document.chars
  saved : k.modified = false → NeverModified (.typing (.opened cwd.toInt), s₀) keys ∨ InFile cwd k s.nodes

section Run
variable {cwd : Int32} {s₀ s s' : System} {keys : List Key} {key : Key} {k k' : Kate}

/-- A save that succeeds puts the text into the file. -/
theorem kateSave_inFile (hnode : k.node = -1) (hcwd : k.cwdNd = cwd.toInt) (hname : k.fname = document)
    (s : System) :
    (¬ Accepts s.nodes cwd.toInt document.chars ∧ kateSave k s = .ok (-1, k, s)) ∨
      Accepts s.nodes cwd.toInt document.chars ∧ ∃ s', kateSave k s = .ok (0, {k with modified := false}, s') ∧
        InFile cwd k s'.nodes := by
  rcases kateSave_cases hnode hcwd hname s with hfail | ⟨hacc, t, f, hf, _, hsave⟩
  · exact .inl hfail
  · obtain ⟨-, hfile⟩ := fsWriteFile_hasFile plainName_document hf k.buf.chars
    have hbytes : contents (Function.update t f (fillNode (t f) k.buf.chars) f) = k.buf.chars := by
      rw [Function.update_self]
      exact contents_fillNode_buffer _ k.buf
    refine .inr ⟨hacc, _, hsave, f, ?_, ?_⟩
    · rw [nodes_diskSync, hname]
      exact hfile
    · rw [nodes_diskSync]
      exact hbytes

/-- One more key that ends without modification. -/
theorem NeverModified.concat {e : Editor × System} (h : NeverModified e keys)
    (hlast : ∀ e' s' k, runKate e (keys ++ [key]) = .ok (e', s') → e'.kate = some k → k.modified = false) :
    NeverModified e (keys ++ [key]) := by
  intro pre hpre e' s' k hrun hk
  rcases List.prefix_concat_iff.mp hpre with rfl | hbefore
  · exact hlast e' s' k hrun hk
  · exact h pre hbefore e' s' k hrun hk

/-- A key that saves nothing, and marks the text or leaves it alone. -/
theorem Tracked.step {e : Editor} (h : Tracked cwd s₀ keys k s)
    (hrun : runKate (.typing (.opened cwd.toInt), s₀) (keys ++ [key]) = .ok (e, s)) (he : e.kate = some k')
    (hsame : k'.node = k.node ∧ k'.cwdNd = k.cwdNd ∧ k'.fname = k.fname)
    (htext : k'.modified = false → k.modified = false ∧ k'.buf = k.buf) :
    Tracked cwd s₀ (keys ++ [key]) k' s := by
  obtain ⟨hnode, hcwd, hname⟩ := hsame
  refine ⟨hnode.trans h.node, hcwd.trans h.cwdNd, hname.trans h.fname, h.accepts, fun hclean => ?_⟩
  obtain ⟨hbefore, hbuf⟩ := htext hclean
  rcases h.saved hbefore with hnever | hfile
  · refine .inl (hnever.concat fun e' s' k'' hrun' he' => ?_)
    rw [hrun] at hrun'
    cases hrun'
    rw [he] at he'
    cases he'
    exact hclean
  · unfold InFile at hfile ⊢
    rw [hname, hbuf]
    exact .inr hfile

/-- What is known of the editor after these keys: the prompt is up only for a modified text. -/
structure EditorTracked (cwd : Int32) (s₀ : System) (keys : List Key) (e : Editor) (s : System) : Prop where
  kate : ∀ k, e.kate = some k → Tracked cwd s₀ keys k s
  asking : ∀ k, e = .asking k → k.modified = true

theorem EditorTracked.closed : EditorTracked cwd s₀ keys .closed s :=
  ⟨fun _ hk => (nomatch hk), fun _ hk => nomatch hk⟩

theorem Tracked.typing (h : Tracked cwd s₀ keys k s) : EditorTracked cwd s₀ keys (.typing k) s := by
  refine ⟨fun k' hk' => ?_, fun _ hk' => nomatch hk'⟩
  cases hk'
  exact h

theorem Tracked.asking (h : Tracked cwd s₀ keys k s) (hmod : k.modified = true) :
    EditorTracked cwd s₀ keys (.asking k) s := by
  refine ⟨fun k' hk' => ?_, fun k' hk' => ?_⟩
  · cases hk'
    exact h
  · cases hk'
    exact hmod

/-- Nothing of the editor's text changes. -/
theorem Tracked.unchanged {e : Editor} (h : Tracked cwd s₀ keys k s)
    (hrun : runKate (.typing (.opened cwd.toInt), s₀) (keys ++ [key]) = .ok (e, s)) (he : e.kate = some k) :
    Tracked cwd s₀ (keys ++ [key]) k s :=
  h.step hrun he ⟨rfl, rfl, rfl⟩ fun hclean => ⟨hclean, rfl⟩

/-- A key while the text is edited, -/
theorem kateKey_tracked {e : Editor} (h : Tracked cwd s₀ keys k s)
    (hrun : runKate (.typing (.opened cwd.toInt), s₀) (keys ++ [key]) = .ok (e, s'))
    (hkey : kateKey k key s = .ok (e, s')) : EditorTracked cwd s₀ (keys ++ [key]) e s' := by
  unfold kateKey at hkey
  split at hkey
  · cases hkey
    cases hmod : k.modified with
    | false => exact .closed
    | true =>
      rw [hmod, if_pos rfl] at hrun
      exact (h.unchanged hrun rfl).asking hmod
  split at hkey
  · rcases kateSave_inFile h.node h.cwdNd h.fname s with ⟨_, hsave⟩ | ⟨hacc, s₂, hsave, hfile⟩
    · rw [hsave] at hkey
      cases hkey
      exact (h.unchanged hrun rfl).typing
    · rw [hsave] at hkey
      cases hkey
      refine Tracked.typing ⟨h.node, h.cwdNd, h.fname, ⟨fun _ => h.accepts.mp hacc, fun _ => ?_⟩,
        fun _ => .inr hfile⟩
      obtain ⟨f, hf, _⟩ := hfile
      rw [h.fname] at hf
      exact .inl ⟨f, hf⟩
  · cases hkey
    refine (h.step hrun rfl (k.edit_same key) fun hclean => ?_).typing
    rcases k.edit_cases key with hmarked | ⟨hmod, hbuf⟩
    · rw [hmarked] at hclean
      cases hclean
    · exact ⟨hmod.symm.trans hclean, hbuf⟩

/-- and one at the prompt. -/
theorem kateUnsavedPrompt_tracked {e : Editor} (h : Tracked cwd s₀ keys k s) (hmod : k.modified = true)
    (hrun : runKate (.typing (.opened cwd.toInt), s₀) (keys ++ [key]) = .ok (e, s'))
    (hkey : kateUnsavedPrompt k key s = .ok (e, s')) : EditorTracked cwd s₀ (keys ++ [key]) e s' := by
  unfold kateUnsavedPrompt at hkey
  split at hkey
  · obtain ⟨⟨r, k', s₂⟩, _, hkey⟩ := Foundation.bind_eq_ok.mp hkey
    cases hkey
    exact .closed
  split at hkey
  · cases hkey
    exact .closed
  split at hkey
  · cases hkey
    exact (h.unchanged hrun rfl).typing
  · cases hkey
    exact (h.unchanged hrun rfl).asking hmod

/-- **Every key keeps track of the text.** -/
theorem runKate_tracked (keys : List Key) {e : Editor}
    (hrun : runKate (.typing (.opened cwd.toInt), s₀) keys = .ok (e, s)) : EditorTracked cwd s₀ keys e s := by
  induction keys using List.reverseRecOn generalizing e s with
  | nil =>
    cases hrun
    refine Tracked.typing ⟨rfl, rfl, rfl, .rfl, fun _ => .inl fun pre hpre e' s' k' hrun' hk' => ?_⟩
    obtain rfl := List.prefix_nil.mp hpre
    cases hrun'
    cases hk'
    rfl
  | append_singleton keys key ih =>
    have hwhole := hrun
    rw [runKate_concat] at hrun
    obtain ⟨⟨e₀, s₁⟩, hbefore, hkey⟩ := Foundation.bind_eq_ok.mp hrun
    obtain ⟨htracked, hasking⟩ := ih hbefore
    cases e₀ with
    | closed =>
      cases hkey
      exact .closed
    | typing k => exact kateKey_tracked (htracked k rfl) hwhole hkey
    | asking k => exact kateUnsavedPrompt_tracked (htracked k rfl) (hasking k rfl) hwhole hkey

/-- F2 at the prompt, where nothing can be saved: the editor closes, and the text is lost. -/
theorem prompt_lost (hrun : runKate (.typing (.opened cwd.toInt), s₀) keys = .ok (.asking k, s))
    (hno : ¬ Accepts s₀.nodes cwd.toInt document.chars) :
    kateStep keyF2 (.asking k, s) = .ok (.closed, s) ∧ ¬ NotLost cwd s₀ keys (.asking k) keyF2 s := by
  obtain ⟨htracked, hasking⟩ := runKate_tracked keys hrun
  have hk := htracked k rfl
  have hmod := hasking k rfl
  have hfull : ¬ Accepts s.nodes cwd.toInt document.chars := fun hacc => hno (hk.accepts.mp hacc)
  rcases kateSave_inFile hk.node hk.cwdNd hk.fname s with ⟨_, hsave⟩ | ⟨hacc, _⟩
  · constructor
    · show kateUnsavedPrompt k keyF2 s = _
      rw [kateUnsavedPrompt, if_pos rfl, hsave]
      rfl
    · intro hnot
      rcases hnot with ⟨k', _, hd⟩ | hnever | ⟨k', hk', f, hf, _⟩
      · exact absurd hd (by decide)
      · have hclean := hnever keys (List.prefix_refl keys) _ _ k hrun rfl
        rw [hmod] at hclean
        cases hclean
      · cases hk'
        rw [hk.fname] at hf
        exact hfull (.inl ⟨f, hf⟩)
  · exact absurd hacc hfull

/-- **The editor loses an edit silently exactly where F2 closes it and nothing can be saved**: where
`untitled.txt` in its directory is a directory, or there is none and no slot is free. -/
theorem runKate_notLost_iff {e : Editor} (hrun : runKate (.typing (.opened cwd.toInt), s₀) keys = .ok (e, s))
    (hopen : e ≠ .closed) (hclose : kateStep key (e, s) = .ok (.closed, s')) :
    (NotLost cwd s₀ keys e key s' ∧ LeftSaved e s key s') ↔ key ≠ keyF2 ∨
      Accepts s₀.nodes cwd.toInt document.chars := by
  obtain ⟨htracked, hasking⟩ := runKate_tracked keys hrun
  cases e with
  | closed => exact absurd rfl hopen
  | typing k =>
    have hk := htracked k rfl
    change kateKey k key s = _ at hclose
    unfold kateKey at hclose
    split at hclose
    · rename_i hesc
      have hne : key ≠ keyF2 := by
        rw [hesc]
        decide
      cases hmod : k.modified with
      | true =>
        rw [hmod, if_pos rfl] at hclose
        cases hclose
      | false =>
        rw [hmod, if_neg Bool.false_ne_true] at hclose
        cases hclose
        refine ⟨fun _ => .inl hne, fun _ => ⟨.inr ?_, fun _ hk' => (nomatch hk')⟩⟩
        exact (hk.saved hmod).imp id fun hfile => ⟨k, rfl, hfile⟩
    split at hclose
    · obtain ⟨x, _, hclose⟩ := Foundation.bind_eq_ok.mp hclose
      cases hclose
    · cases hclose
  | asking k =>
    have hk := htracked k rfl
    change kateUnsavedPrompt k key s = _ at hclose
    unfold kateUnsavedPrompt at hclose
    split at hclose
    · rename_i hkey
      subst hkey
      rcases kateSave_inFile hk.node hk.cwdNd hk.fname s with ⟨hno, hsave⟩ | ⟨hacc, s₂, hsave, hfile⟩
      · have hnone : ¬ Accepts s₀.nodes cwd.toInt document.chars := fun hacc => hno (hk.accepts.mpr hacc)
        rw [hsave] at hclose
        cases hclose
        refine ⟨fun hnot => absurd hnot.1 (prompt_lost hrun hnone).2, fun hcond => ?_⟩
        exact absurd (hcond.resolve_left fun h => h rfl) hnone
      · rw [hsave] at hclose
        cases hclose
        refine ⟨fun _ => .inr (hk.accepts.mp hacc), fun _ => ⟨.inr (.inr ⟨k, rfl, hfile⟩), fun k' hk' _ => ?_⟩⟩
        cases hk'
        exact ⟨_, hsave⟩
    split at hclose
    · rename_i hne hd
      cases hclose
      exact ⟨fun _ => .inl hne, fun _ => ⟨.inl ⟨k, rfl, hd⟩, fun _ _ hkey => absurd hkey hne⟩⟩
    split at hclose
    · cases hclose
    · cases hclose

end Run

/-- The desktop's first state. -/
def deskSystem : System := (boot blankDisk.drive).sys

/-- The same with a directory where the editor would save. -/
def untitledDir : System :=
  {deskSystem with nodes := withDir fsInit 1 0 ⟨document.chars, document.noNul, by decide⟩}

theorem untitledDir_refuses : ¬ Accepts untitledDir.nodes (0 : Int32).toInt document.chars := by
  have hcr := withDir_created (t := fsInit) (n := 1) (by decide) (by rw [fsInit_other 1 (by decide)]; rfl) 0
    ⟨document.chars, document.noNul, by decide⟩
  have hne : document.chars ≠ lit "/" := by
    rw [document_chars]
    decide
  exact not_accepts_dir (hcr.findChild_new (findChild_fsInit hne)) hcr.dir

/-- An `a`, Escape, and `d` at the prompt. -/
theorem runKate_notLost_iff_discard :
    (NotLost 0 deskSystem [0x61, keyEsc] (.asking ((Kate.opened 0).edit 0x61)) 0x64 deskSystem ∧
      LeftSaved (.asking ((Kate.opened 0).edit 0x61)) deskSystem 0x64 deskSystem) ↔
      (0x64 : Key) ≠ keyF2 ∨ Accepts deskSystem.nodes (0 : Int32).toInt document.chars := by
  have hrun : runKate (.typing (.opened (0 : Int32).toInt), deskSystem) [0x61, keyEsc] =
      .ok (.asking ((Kate.opened 0).edit 0x61), deskSystem) := rfl
  exact runKate_notLost_iff hrun nofun rfl

/-- An `a`, Escape, and F2 at the prompt, where `untitled.txt` is a directory. -/
theorem prompt_loses_edit : ¬ ∀ (cwd : Int32) (s₀ : System) (keys : List Key) (e : Editor) (s : System)
    (key : Key) (s' : System), runKate (.typing (.opened cwd.toInt), s₀) keys = .ok (e, s) → e ≠ .closed →
    kateStep key (e, s) = .ok (.closed, s') → NotLost cwd s₀ keys e key s' ∧ LeftSaved e s key s' := by
  intro h
  have hrun : runKate (.typing (.opened (0 : Int32).toInt), untitledDir) [0x61, keyEsc] =
      .ok (.asking ((Kate.opened 0).edit 0x61), untitledDir) := rfl
  obtain ⟨hclose, hlost⟩ := prompt_lost hrun untitledDir_refuses
  exact hlost (h 0 untitledDir _ _ _ keyF2 _ hrun nofun hclose).1

end FurOS.Desktop
