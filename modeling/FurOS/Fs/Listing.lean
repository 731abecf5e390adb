import FurOS.Foundation.Cells
import FurOS.Fs.Printing

/-! Listing a directory into a buffer, and removing one (`fs_list` and `fs_remove`).

The loop of `fs_list` counts every entry and stores as many as there is room for (`listLoop_eq`), so that
`fsListOut` leaves in the buffer what `fsList` says. `fs_remove` looks for children in a loop of its own, which does
not leave out the directory itself: a directory other than the root is not its own parent, so that both
agree on what is empty (`isEntry_iff`). -/
namespace FurOS
open Foundation

/-! ### The loop -/

/-- The loop over the slots: `out` and `count`. -/
def listLoop (t : Nodes) (dir : Int) {maxOut : Nat} (out : Fin maxOut → Int) (count : Nat) :
    List NodeId → (Fin maxOut → Int) × Nat
  | [] => (out, count)
  | i :: slots =>
    if (t i).used && decide ((t i).parent.toInt = dir) && decide ((i.val : Int) ≠ dir) then
      listLoop t dir (if h : count < maxOut then Function.update out ⟨count, h⟩ i.val else out) (count + 1) slots
    else listLoop t dir out count slots

/-- What `fs_list` returns, and `out` as it leaves it. -/
def fsListOut (t : Nodes) (dir : Int) {maxOut : Nat} (out : Fin maxOut → Int) : Int × (Fin maxOut → Int) :=
  match usedNode t dir with
  | none => (-1, out)
  | some d =>
    if !(t d).isDir then (-1, out)
    else
      let (out, count) := listLoop t dir out 0 (List.finRange 128)
      if count > 2147483647 then (-1, out) else (count, out)

/-- A node that `fs_list` lists. -/
def IsEntry (t : Nodes) (dir : Int) (i : NodeId) : Prop :=
  (t i).used = true ∧ (t i).parent.toInt = dir ∧ (i.val : Int) ≠ dir

instance (t : Nodes) (dir : Int) : DecidablePred (IsEntry t dir) := fun _ => inferInstanceAs (Decidable (_ ∧ _))

/-- The nodes listed, in the order of their slots. -/
def entriesOf (t : Nodes) (dir : Int) (slots : List NodeId) : List NodeId := slots.filter fun i => IsEntry t dir i

/-- The loop counts the entries, and stores those there is room for. -/
theorem listLoop_eq (t : Nodes) (dir : Int) {maxOut : Nat} (out : Fin maxOut → Int) (count : Nat)
    (slots : List NodeId) : listLoop t dir out count slots =
      (Cells.fill out count ((entriesOf t dir slots).map fun i => (i.val : Int)),
        count + (entriesOf t dir slots).length) := by
  induction slots generalizing out count with
  | nil => rfl
  | cons i slots ih =>
    have hcond : ((t i).used && decide ((t i).parent.toInt = dir) && decide ((i.val : Int) ≠ dir)) =
        decide (IsEntry t dir i) := by
      rw [Bool.eq_iff_iff, decide_eq_true_iff]
      simp [IsEntry, and_assoc]
    rw [listLoop, hcond, entriesOf, List.filter_cons]
    split
    · rw [ih, List.map_cons, Cells.fill, List.length_cons, Nat.add_assoc, Nat.add_comm 1]
      rfl
    · exact ih out count

/-- What `fs_list` leaves of a directory. -/
theorem fsListOut_eq {t : Nodes} {d : NodeId} (hd : (t d).used = true) (hdir : (t d).isDir = true) {maxOut : Nat}
    (out : Fin maxOut → Int) : fsListOut t d.val out =
      (((entriesOf t d.val (List.finRange 128)).length : Int),
        Cells.fill out 0 ((entriesOf t d.val (List.finRange 128)).map fun i => (i.val : Int))) := by
  have hlen : (entriesOf t d.val (List.finRange 128)).length ≤ 128 := by
    have hle := List.length_filter_le (fun i => decide (IsEntry t d.val i)) (List.finRange 128)
    rwa [List.length_finRange] at hle
  rw [fsListOut, usedNode_ofNat t d hd]
  dsimp only
  rw [hdir, if_neg (by decide), listLoop_eq]
  dsimp only
  rw [if_neg (by omega), Nat.zero_add]

/-- What `fsList` says is what is returned and stored. -/
theorem fsListOut_refines {t : Nodes} {d : NodeId} (hd : (t d).used = true) (hdir : (t d).isDir = true)
    {maxOut : Nat} (out : Fin maxOut → Int) : ∃ n l, fsList t d.val maxOut = some (n, l) ∧
      (fsListOut t d.val out).1 = n ∧ Cells.Holds (fsListOut t d.val out).2 (l.map fun i => (i.val : Int)) := by
  have hentries : ((List.finRange 128).filter fun i =>
      (t i).used && decide ((t i).parent.toInt = d.val) && decide ((i.val : Int) ≠ d.val)) =
        entriesOf t d.val (List.finRange 128) := by
    refine List.filter_congr fun i _ => ?_
    rw [Bool.eq_iff_iff, decide_eq_true_iff]
    simp [IsEntry, and_assoc]
  refine ⟨(entriesOf t d.val (List.finRange 128)).length, (entriesOf t d.val (List.finRange 128)).take maxOut,
    ?_, ?_⟩
  · rw [fsList, usedNode_ofNat t d hd]
    dsimp only
    rw [hdir, if_neg (by decide), hentries]
  · rw [fsListOut_eq hd hdir, List.map_take]
    exact ⟨rfl, .of_fill out _⟩

/-! ### Empty directories -/

theorem mem_entriesOf {t : Nodes} {dir : Int} {i : NodeId} :
    i ∈ entriesOf t dir (List.finRange 128) ↔ IsEntry t dir i := by simp [entriesOf]

/-- Only the root is its own parent. -/
theorem WellFormed.parent_ne_self {t : Nodes} (wf : WellFormed t) {d : NodeId} (hd : (t d).used = true)
    (h0 : d ≠ 0) : (t d).parent.toInt ≠ d.val :=
  fun h => (wf.tree.rooted d hd).ne_self h0 (parentOf_eq_some.mpr h)

/-- The two tests for a child agree below the root. -/
theorem isEntry_iff {t : Nodes} (wf : WellFormed t) {d : NodeId} (h0 : d ≠ 0) {i : NodeId} :
    IsEntry t d.val i ↔ (t i).used = true ∧ (t i).parent.toInt = d.val := by
  constructor
  · exact fun h => ⟨h.1, h.2.1⟩
  · rintro ⟨hi, hp⟩
    refine ⟨hi, hp, fun h => ?_⟩
    obtain rfl : i = d := Fin.ext (by omega)
    exact wf.parent_ne_self hi h0 hp

theorem fsRemove_resolved {t : Nodes} {cwd : Int} {path : CStr} {d : NodeId} (h : fsResolve t cwd path = .ok d.val)
    (h0 : d ≠ 0) : fsRemove t cwd path =
      if (t d).isDir = true ∧ ∃ i, (t i).used = true ∧ (t i).parent.toInt = d.val then .ok (-1, t)
      else .ok (0, Function.update t d {t d with used := false}) := by
  have hpos : ¬ (d.val : Int) ≤ 0 := fun hle => h0 (Fin.ext (by show d.val = 0; omega))
  rw [fsRemove, h, ok_bind, if_neg hpos, nodeIndex_ofNat, ok_bind]
  simp only [Bool.and_eq_true, decide_eq_true_iff]
  rfl

/-- **Listing and emptiness agree.** A listing counts the entries of a directory and stores the first of
them, in the order of their slots; a directory other than the root is removed when its listing is empty, and a file always. -/
theorem listing_agrees (t : Nodes) (wf : WellFormed t) :
    (∀ d : NodeId, (t d).used = true → (t d).isDir = true → ∀ (m : Nat) (out : Fin m → Int),
      (fsListOut t d.val out).1 = (Finset.univ.filter fun i => IsEntry t d.val i).card ∧
      ∃ l : List NodeId, l.Pairwise (· < ·) ∧ (∀ i, i ∈ l ↔ IsEntry t d.val i) ∧
        Cells.Holds (fsListOut t d.val out).2 ((l.take m).map fun i => (i.val : Int)) ∧
        ∀ j : Fin m, l.length ≤ j.val → (fsListOut t d.val out).2 j = out j) ∧
    (∀ (cwd : Int) (path : CStr) (d : NodeId), fsResolve t cwd path = .ok d.val → (t d).used = true →
      (t d).isDir = true → d ≠ 0 → ∀ (m : Nat) (out : Fin m → Int),
        ∃ r t', fsRemove t cwd path = .ok (r, t') ∧ (r = 0 ↔ (fsListOut t d.val out).1 = 0)) ∧
    ∀ (cwd : Int) (path : CStr) (d : NodeId), fsResolve t cwd path = .ok d.val → (t d).isDir = false →
      ∃ t', fsRemove t cwd path = .ok (0, t') := by
  refine ⟨fun d hd hdir m out => ?_, fun cwd path d h hd hdir h0 m out => ?_, fun cwd path d h hfile => ?_⟩
  · rw [fsListOut_eq hd hdir]
    refine ⟨?_, entriesOf t d.val (List.finRange 128), (List.pairwise_lt_finRange 128).filter _,
      fun i => mem_entriesOf, ?_, fun j hj => ?_⟩
    · have hset : (entriesOf t d.val (List.finRange 128)).toFinset = Finset.univ.filter fun i => IsEntry t d.val i := by
        ext i
        simp [mem_entriesOf]
      have hnodup : (entriesOf t d.val (List.finRange 128)).Nodup := (List.nodup_finRange 128).filter _
      rw [← hset, List.toFinset_card_of_nodup hnodup]
    · rw [List.map_take]
      exact .of_fill out _
    · have hend : ((entriesOf t d.val (List.finRange 128)).map fun i => (i.val : Int))[j.val]? = none :=
        List.getElem?_eq_none (by rwa [List.length_map])
      show Cells.fill out 0 _ j = out j
      rw [Cells.fill_apply, if_neg (Nat.not_lt_zero _), Nat.sub_zero, hend]
      rfl
  · have hempty : (fsListOut t d.val out).1 = 0 ↔ ¬ ∃ i, (t i).used = true ∧ (t i).parent.toInt = d.val := by
      rw [fsListOut_eq hd hdir]
      show ((entriesOf t d.val (List.finRange 128)).length : Int) = 0 ↔ _
      rw [Int.natCast_eq_zero, List.length_eq_zero_iff, List.eq_nil_iff_forall_not_mem, not_exists]
      exact forall_congr' fun i => not_congr (mem_entriesOf.trans (isEntry_iff wf h0))
    rw [hempty, fsRemove_resolved h h0]
    split
    · rename_i hfull
      exact ⟨-1, t, rfl, iff_of_false (by decide) (not_not.mpr hfull.2)⟩
    · rename_i hfree
      exact ⟨0, _, rfl, iff_of_true rfl fun hfull => hfree ⟨hdir, hfull⟩⟩
  · have h0 : d ≠ 0 := fun h => by
      rw [h, wf.root_dir] at hfile
      cases hfile
    rw [fsRemove_resolved h h0, if_neg fun hdir => by simp [hfile] at hdir]
    exact ⟨_, rfl⟩

/-- `oneDir` with a file `g` in its directory. -/
def filledDir : Nodes :=
  Function.update oneDir 2
    (fileNode 0 fsDefaultFileMode 1 ⟨lit "g", by decide, by decide⟩ {FsNode.zero with used := true})

theorem filledDir_created : Created oneDir filledDir 2 1 ⟨lit "g", by decide, by decide⟩ false 0 fsDefaultFileMode :=
  made_created (fileNode_makes 0 fsDefaultFileMode) (by decide) (by decide) 1 _

theorem filledDir_wellFormed : WellFormed filledDir :=
  filledDir_created.wellFormed oneDir_wellFormed oneDir_created.used oneDir_created.dir
    (by decide +kernel)

theorem filledDir_listing :
    (∃ l : List NodeId, l.Pairwise (· < ·) ∧ (∀ i, i ∈ l ↔ IsEntry filledDir 1 i) ∧
      Cells.Holds (fsListOut filledDir 1 fun _ : Fin 4 => -1).2 ((l.take 4).map fun i => (i.val : Int))) ∧
    (∃ r t', fsRemove filledDir 0 (.ofLit "a") = .ok (r, t') ∧
      (r = 0 ↔ (fsListOut filledDir 1 fun _ : Fin 4 => -1).1 = 0)) ∧
    ∃ t', fsRemove filledDir 0 (.ofLit "a/g") = .ok (0, t') := by
  obtain ⟨hlist, hdir, hfile⟩ := listing_agrees filledDir filledDir_wellFormed
  obtain ⟨-, l, hsorted, hmem, hholds, -⟩ := hlist 1 (by decide) (by decide) 4 fun _ => -1
  have hresolve : resolve filledDir 0 (lit "a") = some 1 ∧ resolve filledDir 0 (lit "a/g") = some 2 := by
    decide +kernel
  have hnav := filledDir_wellFormed.navigable
  have hroot := filledDir_wellFormed.root_used
  refine ⟨⟨l, hsorted, hmem, hholds⟩, hdir 0 (.ofLit "a") 1 ?_ (by decide) (by decide) (by decide) 4 _,
    hfile 0 (.ofLit "a/g") 2 ?_ (by decide)⟩
  · exact (fsResolve_eq_some hnav hroot).mpr hresolve.1
  · exact (fsResolve_eq_some hnav hroot).mpr hresolve.2

end FurOS
