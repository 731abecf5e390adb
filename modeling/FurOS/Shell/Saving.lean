import FurOS.Fs.Contract
import FurOS.Shell.Outcomes
import FurOS.Shell.Session
import FurOS.Shell.Tokens

/-! What `write` and `nano` leave in a file.

A line goes through the tokenizer, the joining loop of `cmd_write` and the cut of
`fs_write_file`. A typed line is too short for the last two to cut anything; the tokenizer
stops at sixteen words, so fourteen of the text arrive (`write_stores`). `nano` applies its
keys to the contents, whenever it saves (`nano_stores`). -/
namespace FurOS
open Foundation (words words_length intercalate_length)

/-! ### The joining loop -/

/-- Words that fit are joined by single spaces. -/
theorem joinWords_eq (args : List CStr) (buffer : List UInt8)
    (hfits : buffer.length + (args.map fun w => w.chars.length + 1).sum + 1 < 4096) :
    joinWords buffer args = buffer ++ [32].intercalate (args.map CStr.chars) := by
  induction args generalizing buffer with
  | nil => simp [joinWords]
  | cons word rest ih =>
    rw [List.map_cons, List.sum_cons] at hfits
    rw [joinWords, if_neg (by omega)]
    cases rest with
    | nil => simp [joinWords]
    | cons next rest =>
      rw [if_pos (by simp), ih _ (by simp only [List.length_append, List.length_singleton]; omega)]
      simp [List.intercalate_cons_cons]

/-- The words that the shell gives to a `write` fit, if the line was typed. -/
theorem joinWords_typed {line : CStr} (hline : line.chars.length ≤ 255) {room : Nat} {name path : CStr}
    {args : List CStr} (hargs : shellParse line room = name :: path :: args) :
    joinWords [] args = [32].intercalate (args.map CStr.chars) ∧ (joinWords [] args).length ≤ 4095 := by
  have hwords := shellParse_chars line room
  have hcost : ((shellParse line room).map fun w => w.chars.length + 1).sum ≤ line.chars.length + 1 := by
    have hmap : (shellParse line room).map (fun w => w.chars.length + 1) =
        ((shellParse line room).map CStr.chars).map fun w => w.length + 1 := by
      rw [List.map_map]
      rfl
    rw [hmap, hwords]
    exact (((List.take_sublist _ _).map _).sum_le_sum (by simp)).trans (words_length line.chars)
  rw [hargs, List.map_cons, List.map_cons, List.sum_cons, List.sum_cons] at hcost
  have hlength := intercalate_length 32 (args.map CStr.chars)
  rw [List.map_map] at hlength
  have hsum : (args.map ((fun w => w.length + 1) ∘ CStr.chars)).sum ≤ 255 := by
    show (args.map fun w => w.chars.length + 1).sum ≤ 255
    omega
  rw [joinWords_eq args [] (by rw [List.length_nil]; omega), List.nil_append]
  exact ⟨rfl, by omega⟩

/-! ### The command `write` -/

/-- The call of `fs_write_file` that `cmd_write` makes for the words of a line. -/
def writeCall (t : Nodes) (cwd : Int) : List CStr → Except Fault (Int × Nodes)
  | _ :: path :: args => fsWriteFile t cwd path (some (joinWords [] args)) (joinWords [] args).length
  | _ => .ok (-1, t)

/-- A line `write f t1 …` is taken apart into its first sixteen words. -/
theorem shellParse_write {line path : CStr} {ts : List (List UInt8)} (hts : ts ≠ [])
    (hwords : words isSpace line.chars = lit "write" :: path.chars :: ts) :
    ∃ word args, shellParse line 16 = .ofLit "write" :: path :: word :: args ∧
      (word :: args).map CStr.chars = ts.take 14 := by
  have hchars := shellParse_chars line 16
  rw [hwords, List.take_succ_cons, List.take_succ_cons] at hchars
  obtain ⟨name, rest, hargv, hname, hrest⟩ := List.map_eq_cons_iff.mp hchars
  obtain ⟨path', args, rfl, hpath, hargs⟩ := List.map_eq_cons_iff.mp hrest
  obtain rfl : name = .ofLit "write" := CStr.ext hname
  obtain rfl : path' = path := CStr.ext hpath
  cases args with
  | nil =>
    cases ts with
    | nil => exact absurd rfl hts
    | cons w ts => cases hargs
  | cons word args => exact ⟨word, args, hargv, hargs⟩

/-- **`write` stores the text**, the first fourteen words of it: where `fs_write_file` returns 0 the
file contains them, joined by single spaces. -/
theorem write_stores (line path : CStr) (ts : List (List UInt8)) (hline : line.chars.length ≤ 255) (hts : ts ≠ [])
    (hwords : words isSpace line.chars = lit "write" :: path.chars :: ts) (s : System) (t' : Nodes)
    (hcall : writeCall s.nodes s.shellCwd (shellParse line 16) = .ok (0, t')) :
    shellDispatch (shellParse line 16) s = .ok {s with nodes := t'} ∧
      ReadsBytes t' s.shellCwd path ([32].intercalate (ts.take 14)) := by
  obtain ⟨word, args, hargv, hchars⟩ := shellParse_write hts hwords
  obtain ⟨hjoin, hshort⟩ := joinWords_typed hline hargv
  rw [hargv] at hcall ⊢
  constructor
  · rw [shellDispatch, show commandOf (.ofLit "write") = .write by decide]
    show s.edits (cmdWrite s.nodes s.shellCwd (path :: word :: args)) = _
    rw [cmdWrite, show fsWriteFile s.nodes s.shellCwd path (some (joinWords [] (word :: args))) _ = _ from hcall]
    simp [System.edits, System.print]
  · have hreads := fsWriteFile_readsBytes hcall
    rwa [List.take_of_length_le hshort, hjoin, hchars] at hreads

/-- The system with an empty filesystem. -/
def emptyShell : System := {firstSession blankDisk [] with nodes := fsInit}

theorem write_stores_three : ∃ t', writeCall fsInit 0 (shellParse (.ofLit "write a b  c d ") 16) = .ok (0, t') ∧
    ReadsBytes t' 0 (.ofLit "a") (lit "b c d") := by
  have hparse : shellParse (.ofLit "write a b  c d ") 16 =
      [.ofLit "write", .ofLit "a", .ofLit "b", .ofLit "c", .ofLit "d"] := by decide
  obtain ⟨t', hcall⟩ := fsWriteFile_fsInit (joinWords [] [.ofLit "b", .ofLit "c", .ofLit "d"])
  rw [hparse]
  have hstored := write_stores (.ofLit "write a b  c d ") (.ofLit "a") [lit "b", lit "c", lit "d"] (by decide)
    (by decide) (by decide) emptyShell t' (by rw [hparse]; exact hcall)
  exact ⟨t', hcall, hstored.2⟩

/-- Of fifteen words the last is lost. -/
theorem write_stores_cut : ∃ t' : Nodes,
    words isSpace (CStr.ofLit "write a 1 2 3 4 5 6 7 8 9 a b c d e f").chars =
      lit "write" :: lit "a" :: words isSpace (lit "1 2 3 4 5 6 7 8 9 a b c d e f") ∧
    writeCall fsInit 0 (shellParse (.ofLit "write a 1 2 3 4 5 6 7 8 9 a b c d e f") 16) = .ok (0, t') ∧
    ReadsBytes t' 0 (.ofLit "a") (lit "1 2 3 4 5 6 7 8 9 a b c d e") ∧
    ¬ ReadsBytes t' 0 (.ofLit "a") (lit "1 2 3 4 5 6 7 8 9 a b c d e f") := by
  have hparse : ∃ args, shellParse (.ofLit "write a 1 2 3 4 5 6 7 8 9 a b c d e f") 16 =
      .ofLit "write" :: .ofLit "a" :: args ∧ joinWords [] args = lit "1 2 3 4 5 6 7 8 9 a b c d e" :=
    ⟨_, rfl, by decide⟩
  obtain ⟨args, hargs, hjoin⟩ := hparse
  obtain ⟨t', hcall⟩ := fsWriteFile_fsInit (joinWords [] args)
  have hreads := fsWriteFile_readsBytes hcall
  rw [hjoin] at hreads
  refine ⟨t', by decide, by rw [hargs]; exact hcall, hreads, ?_⟩
  intro h
  obtain ⟨data, size, hread, hbytes⟩ := h
  obtain ⟨data', size', hread', hbytes'⟩ := hreads
  rw [hread] at hread'
  cases hread'
  rw [hbytes] at hbytes'
  exact absurd hbytes' (by decide)

/-! ### The editor -/

/-- What a key does to the text: printable characters and Enter append while there is room. -/
def applyKey (text : List UInt8) (c : UInt8) : List UInt8 :=
  if c = 8 then text.dropLast
  else if c = 10 ∨ c = 13 then if text.length < 4095 then text ++ [10] else text
  else if isPrintable c = true then if text.length < 4095 then text ++ [c] else text
  else text

/-- The buffer follows the text. -/
theorem nanoKey_chars (buffer : NanoBuffer) (c : UInt8) :
    applyKey buffer.chars c =
      match nanoKey buffer c with
      | none => buffer.chars
      | some (buffer', _) => buffer'.chars := by
  have hroom : buffer.chars.length + 1 < 4096 ↔ buffer.chars.length < 4095 := by omega
  unfold applyKey nanoKey
  by_cases h8 : c = 8
  · rw [if_pos h8, if_pos h8]
    by_cases he : buffer.chars = []
    · rw [if_pos he, he]
      rfl
    · rw [if_neg he]
      rfl
  rw [if_neg h8, if_neg h8]
  by_cases hn : c = 10 ∨ c = 13
  · rw [if_pos hn, if_pos hn]
    by_cases hlen : buffer.chars.length < 4095
    · rw [if_pos hlen, dif_pos (hroom.mpr hlen)]
      rfl
    · rw [if_neg hlen, dif_neg (by omega)]
  rw [if_neg hn, if_neg hn]
  by_cases hp : isPrintable c = true
  · rw [if_pos hp]
    by_cases hlen : buffer.chars.length < 4095
    · rw [if_pos hlen, dif_pos ⟨hp, hroom.mpr hlen⟩]
      rfl
    · rw [if_neg hlen, dif_neg (by omega)]
  · rw [if_neg hp, dif_neg (fun h => hp h.1)]

/-- Typing keys up to the first Ctrl+X. -/
theorem typed_chars {ks : List UInt8} (hks : keyExit ∉ ks) (rest : List UInt8) (buffer : NanoBuffer) :
    (typed buffer (ks ++ keyExit :: rest)).chars = ks.foldl applyKey buffer.chars := by
  induction ks generalizing buffer with
  | nil =>
    rw [List.nil_append, typed, if_pos rfl]
    rfl
  | cons c ks ih =>
    have hc : c ≠ keyExit := fun h => hks (h ▸ List.mem_cons_self)
    have hstep := nanoKey_chars buffer c
    have ih := ih fun h => hks (List.mem_cons_of_mem c h)
    rw [List.cons_append, typed, if_neg hc, List.foldl_cons, hstep]
    cases nanoKey buffer c with
    | none => exact ih buffer
    | some x => exact ih x.1

/-- A touch that succeeded leaves the nodes there were. -/
theorem Creation.existing {t t' : Nodes} {c : NodeId} {path : CStr} {dir : Bool} {owner mode : UInt16} {r : Int}
    (h : Creation t c path dir owner mode r t') {i : NodeId} (hi : (t i).used = true) : t' i = t i := by
  cases h with
  | failed => rfl
  | found => rfl
  | created _ _ _ _ hcr => exact hcr.old hi

/-- **`nano` saves what was edited.** From a file that opens, the keys before the first Ctrl+X leave
the text they make of its contents, wherever a Ctrl+S stood among them. Every other node that existed
is as it was, and so are all owners and modes. -/
theorem nano_stores (t : Nodes) (wf : WellFormed t) (cwd : Int) (hcwd : UsedDir t cwd) (path : CStr)
    (args : List CStr) (t₁ : Nodes) (htouch : fsTouch t cwd path = .ok (0, t₁)) (data : Fin 4096 → UInt8)
    (size : UInt64) (hread : fsReadFile t₁ cwd path = .ok (some (data, size))) (ks : List UInt8)
    (hks : keyExit ∉ ks) (later : List UInt8) :
    ∃ t' text left, cmdNano t cwd (path :: args) (ks ++ keyExit :: later) = .ok (t', text, some left) ∧
      ReadsBytes t' cwd path (ks.foldl applyKey ((List.ofFn data).take size.toNat)) ∧
      (∀ i, (t i).used = true → fsResolve t₁ cwd path ≠ .ok (i.val : Int) → t' i = t i) ∧
      ∀ i, (t i).used = true → (t' i).owner = (t i).owner ∧ (t' i).mode = (t i).mode := by
  obtain ⟨c, rfl, hc, hd⟩ := hcwd
  obtain ⟨r, t₂, hop, hcr⟩ := fsTouchAs_ok wf hc hd path 0 fsDefaultFileMode
  obtain ⟨rfl, rfl⟩ : r = 0 ∧ t₂ = t₁ := by
    have := hop.symm.trans htouch
    cases this
    exact ⟨rfl, rfl⟩
  have wf₁ := hcr.wellFormed wf
  have hc₁ := hcr.used hc
  cases hres : resolve t₂ c path.chars with
  | none =>
    rw [fsReadFile_eq wf₁ hc₁, hres] at hread
    cases hread
  | some e =>
    have hleads : fsResolve t₂ (c.val : Int) path = .ok (e.val : Int) :=
      (fsResolve_eq_some wf₁.navigable hc₁).mpr hres
    cases hdir : (t₂ e).isDir with
    | true =>
      rw [fsReadFile_eq wf₁ hc₁, hres, Option.bind_some, if_pos hdir] at hread
      cases hread
    | false =>
      rw [fsReadFile_file hleads hdir] at hread
      cases hread
      have hexit : keyExit ∈ ks ++ keyExit :: later := List.mem_append_right ks List.mem_cons_self
      obtain ⟨text, rest, hnano, hend⟩ := cmdNano_opened htouch hleads hdir args (ks ++ keyExit :: later)
      obtain ⟨left, rfl⟩ : ∃ left, rest = some left :=
        Option.ne_none_iff_exists'.mp (by rw [ne_eq, hend, not_not]; exact hexit)
      have hfill := refilled_saveAll t₂ e (saves (.ofData (t₂ e).data (t₂ e).size) false (ks ++ keyExit :: later))
      have hbuffer := ofData_chars (wf₁.contained e (resolve_used wf₁.navigable hc₁ hres))
      refine ⟨_, _, left, hnano, ⟨_, _, fsReadFile_file ((hfill.fsResolve _ _).trans hleads)
        ((hfill.isDir e).trans hdir), ?_⟩, fun i hi hne => ?_, fun i hi => ?_⟩
      · show contents _ = ks.foldl applyKey (contents (t₂ e))
        rw [Function.update_self, contents_saves (fun _ => hbuffer.symm) hexit, typed_chars hks, hbuffer]
      · rw [hfill.other i fun h => hne (h ▸ hleads), hcr.existing hi]
      · rw [hfill.field FsNode.owner (fun _ => rfl), hfill.field FsNode.mode (fun _ => rfl), hcr.existing hi]
        exact ⟨rfl, rfl⟩

/-- `a` opens in an empty filesystem. -/
theorem nano_opens_fsInit : ∃ t₁ data size, fsTouch fsInit 0 (.ofLit "a") = .ok (0, t₁) ∧
    fsReadFile t₁ 0 (.ofLit "a") = .ok (some (data, size)) ∧ size = 0 := by
  have hcheck : ∃ x : Int × Nodes × Option ((Fin 4096 → UInt8) × UInt64),
      (fsTouch fsInit 0 (.ofLit "a") >>= fun y => fsReadFile y.2 0 (.ofLit "a") >>= fun f => .ok (y.1, y.2, f)) =
        .ok x ∧ (x.1 == 0 && x.2.2.any fun f => f.2 == 0) = true :=
    Foundation.exists_of_check (by decide +kernel)
  obtain ⟨_, hrun, hx⟩ := hcheck
  obtain ⟨⟨r, t₁⟩, htouch, hrun⟩ := Foundation.bind_eq_ok.mp hrun
  obtain ⟨f, hread, hrun⟩ := Foundation.bind_eq_ok.mp hrun
  cases hrun
  cases f with
  | none => simp at hx
  | some f =>
    obtain ⟨rfl, hsize⟩ : r = 0 ∧ f.2 = 0 := by simpa using hx
    exact ⟨t₁, f.1, f.2, htouch, hread, hsize⟩

/-- `b`, Backspace, `c`, Ctrl+S, `d`, Ctrl+X. -/
theorem nano_stores_cd : ∃ t' text left,
    cmdNano fsInit 0 [.ofLit "a"] (lit "b" ++ [8] ++ lit "c" ++ [keySave] ++ lit "d" ++ [keyExit]) =
      .ok (t', text, some left) ∧ ReadsBytes t' 0 (.ofLit "a") (lit "cd") := by
  obtain ⟨t₁, data, size, htouch, hread, rfl⟩ := nano_opens_fsInit
  obtain ⟨t', text, left, hnano, hreads, _⟩ := nano_stores fsInit wellFormed_fsInit 0
    wellFormed_fsInit.usedDir_root (.ofLit "a") [] t₁ htouch data 0 hread
    (lit "b" ++ [8] ++ lit "c" ++ [keySave] ++ lit "d") (by decide) []
  exact ⟨t', text, left, hnano, hreads⟩

end FurOS
