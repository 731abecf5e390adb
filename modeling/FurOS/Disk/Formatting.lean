import FurOS.Disk.Persistence

/-! What a format that fails leaves.

`disk_format_fs` empties the table first and saves it afterwards, so what it reports
depends on the disk alone and what it leaves in memory on neither: the empty
filesystem, also where nothing could be saved. -/
namespace FurOS

/-- A disk is selected and its next writes, the header's and the image's, succeed. -/
def SaveSucceeds (d : Disk) : Prop :=
  0 ≤ d.selectedDisk ∧ ∀ k < 1037, d.drive.outcome (d.drive.ops + k) = .ok

theorem diskSaveFs_eq_zero_iff {t : Nodes} {d : Disk} : (diskSaveFs t d).1 = 0 ↔ SaveSucceeds d :=
  ⟨diskSaveFs_eq_zero, fun h => (diskSaveFs_ok h.1 h.2 t).1⟩

theorem diskFormatFs_eq_zero_iff {d : Disk} : (diskFormatFs d).1 = 0 ↔ SaveSucceeds d := by
  rw [← diskSaveFs_eq_zero_iff (t := fsInit)]
  unfold diskFormatFs
  by_cases h : (diskSaveFs fsInit d).1 = 0
  · simp [h]
  · simp [h]

/-- A format fails exactly where a save would. -/
theorem diskFormatFs_failed_iff (d : Disk) : (diskFormatFs d).1 = -1 ↔ ¬ SaveSucceeds d := by
  rw [← diskSaveFs_eq_zero_iff (t := fsInit)]
  unfold diskFormatFs
  by_cases h : (diskSaveFs fsInit d).1 = 0
  · simp [h]
  · simp [h]

/-- A format that failed lost nothing. -/
def FormatKeeps (t : Nodes) (d : Disk) : Prop := (diskFormatFs d).1 = -1 → (diskFormatFs d).2.1 = t

/-- **A format loses nothing exactly when it cannot fail or there was nothing to lose.** -/
theorem diskFormatFs_keeps_iff (t : Nodes) (d : Disk) : FormatKeeps t d ↔ SaveSucceeds d ∨ t = fsInit := by
  unfold FormatKeeps
  rw [diskFormatFs_failed_iff, diskFormatFs_nodes]
  constructor
  · intro h
    by_cases hsave : SaveSucceeds d
    · exact .inl hsave
    · exact .inr (h hsave).symm
  · rintro (hsave | rfl) hfailed
    · exact absurd hsave hfailed
    · rfl

/-- Without a disk, and on one whose first write fails, a format reports a failure and the mode of
the root is gone. -/
theorem diskFormatFs_loses : ¬ FormatKeeps privateRoot {blankDisk with selectedDisk := -1} ∧
    ¬ FormatKeeps privateRoot (failingDisk 0) := by
  have hne : fsInit ≠ privateRoot := fun h => by
    have hroot := congrArg FsNode.mode (congrFun h 0)
    rw [privateRoot_root, fsInit_root] at hroot
    exact absurd hroot (by decide)
  have hloses : ∀ d, ¬ SaveSucceeds d → ¬ FormatKeeps privateRoot d := fun d hd hkeeps =>
    hne (by rw [← hkeeps ((diskFormatFs_failed_iff d).mpr hd), diskFormatFs_nodes])
  refine ⟨hloses _ fun h => absurd h.1 (by decide), hloses _ fun h => ?_⟩
  have hfirst := h.2 0 (by decide)
  simp [failingDisk] at hfirst

end FurOS
