import FurOS.Disk.Ports

/-! How long probing takes.

Every wait of the driver gives up after `ATA_POLL_ATTEMPTS` reads of the status, but the one in
`ide_probe_device`: it goes on for as long as the status shows `BSY`. So there is a bound for
everything but that loop (`ideIdentify_bounded`), and probing ends exactly where a status that is read there
ends it (`probing_ends_iff`). Where no controller answers and the bus reads `0xFF`, nothing does
(`floating_bus_hangs`). -/
namespace FurOS.Ata
open Foundation (Metered Event)

/-! ### One access and the rest -/

section Accesses
variable {α : Type} {σ : Nat → UInt32} {n : Nat} {port : UInt16}

@[simp] theorem finishes_inb_bind {g : UInt8 → Io α} :
    (inb port >>= g).Finishes σ (n + 1) ↔ (g (σ 0).toUInt8).Finishes (fun n => σ (n + 1)) n := by
  simp [inb]

@[simp] theorem finishes_outb_bind {value : UInt8} {g : Unit → Io α} :
    (outb port value >>= g).Finishes σ (n + 1) ↔ (g ()).Finishes σ n := by
  simp [outb]

@[simp] theorem finishes_delay_bind {g : Unit → Io α} :
    (ideDelay400ns port >>= g).Finishes σ (n + 4) ↔ (g ()).Finishes (fun n => σ (n + 4)) n := by
  simp [ideDelay400ns, Nat.add_assoc]

end Accesses

theorem inb_bounded (port : UInt16) : (inb port).Bounded 1 := fun _ => rfl

theorem inw_bounded (port : UInt16) : (inw port).Bounded 1 := fun _ => rfl

theorem outb_bounded (port : UInt16) (value : UInt8) : (outb port value).Bounded 1 := fun _ => rfl

theorem ideDelay400ns_bounded (ioBase : UInt16) : (ideDelay400ns ioBase).Bounded 4 := fun _ => rfl

/-! ### The waits that give up -/

theorem errorIde_bounded (message : CStr) (ioBase : UInt16) (status : UInt8) :
    (errorIde message ioBase status).Bounded 1 := fun _ => rfl

/-- Two accesses for each attempt, and the error register. -/
theorem idePoll_bounded (verdict : UInt8 → Verdict) (timeout : CStr) (ioBase : UInt16) (status : UInt8)
    (attempts : Nat) : (idePoll verdict timeout ioBase status attempts).Bounded (2 * attempts + 1) := by
  induction attempts generalizing status with
  | zero => exact (errorIde_bounded timeout ioBase status).bind fun _ => .pure _
  | succ attempts ih =>
    refine ((inb_bounded (ioBase + 7)).bind (m := 2 * attempts + 2) fun status => ?_).mono (by omega)
    cases verdict status with
    | again => exact ((outb_bounded 0x80 0).bind fun _ => ih status).mono (by omega)
    | done => exact (Metered.Bounded.pure _).mono (by omega)
    | failed message =>
      exact ((errorIde_bounded message ioBase status).bind fun _ => .pure _).mono (by omega)

theorem ideWait_bounded (verdict : UInt8 → Verdict) (timeout : CStr) (ioBase : UInt16) :
    (ideWait verdict timeout ioBase).Bounded (4 + (2 * ataPollAttempts + 1)) :=
  (ideDelay400ns_bounded ioBase).bind fun _ => idePoll_bounded verdict timeout ioBase 0 ataPollAttempts

theorem readIdentify_bounded (port : UInt16) (identify : Fin 256 → UInt16) :
    (readIdentify port identify).Bounded 256 := by
  have hbody (identify : Fin 256 → UInt16) (i : Fin 256) :
      (inw port >>= fun word => pure (Function.update identify i word) : Io (Fin 256 → UInt16)).Bounded 1 :=
    (inw_bounded port).bind fun _ => .pure _
  have hloop := Metered.Bounded.foldlM hbody (List.finRange 256) identify
  rwa [List.length_finRange] at hloop

/-- What is left of `ide_probe_device` after its loop. -/
theorem ideIdentify_bounded (s : Driver) (i : Fin 4) :
    (ideIdentify s i).Bounded (4 + (2 * ataPollAttempts + 1) + 256) := by
  refine (ideWait_bounded drqVerdict _ (ideBase i)).bind fun e => ?_
  cases e with
  | some e => exact (Metered.Bounded.pure _).mono (Nat.zero_le _)
  | none => exact ((readIdentify_bounded (ideBase i) _).bind fun _ => .pure _).mono (Nat.le_refl 256)

/-! ### The loop that does not -/

/-- `BSY` in a value that a port returned. -/
def Busy (value : UInt32) : Prop := value.toUInt8 &&& ataSrBsy ≠ 0

instance (value : UInt32) : Decidable (Busy value) := inferInstanceAs (Decidable (_ ≠ _))

/-- The loop of `ide_probe_device` is over with the first value that does not show `BSY`. -/
theorem inbWhile_finishes_iff {port : UInt16} {σ : Nat → UInt32} {status : UInt8} {n : Nat} :
    (inbWhile port (fun status => status &&& ataSrBsy ≠ 0) status).Finishes σ n ↔
      status &&& ataSrBsy = 0 ∨ ∃ k < n, ¬ Busy (σ k) := by
  have hvalue : status.toUInt32.toUInt8 = status := by simp
  have hloop : (Metered.askWhile (.inb port) (fun value => decide (value.toUInt8 &&& ataSrBsy ≠ 0))
      status.toUInt32 : Io UInt32).Finishes σ n ↔ _ := Metered.finishes_askWhile
  rw [hvalue] at hloop
  simp only [decide_eq_false_iff_not, not_not] at hloop
  unfold Busy
  simp only [not_not]
  refine Iff.trans ?_ hloop
  constructor
  · intro h
    obtain ⟨a, log, hrun, hlen, _⟩ := Metered.finishes_bind.mp h
    exact hrun.finishes hlen
  · intro h
    have hend := h.bind (m := 0) fun a _ _ => Metered.finishes_pure a.toUInt8 0
    exact hend

/-- Accesses of a probe that are not in its loop: those before it, and those after it. -/
def probeAccesses : Nat := 11 + (2 + (4 + (2 * ataPollAttempts + 1) + 256))

section Probe
variable {σ : Nat → UInt32} {s : Driver} {index : Int} {i : Fin 4} {k n : Nat}

/-- The status after `IDENTIFY` is the fifth value that is read, and the loop goes on from there. -/
theorem ideProbeDevice_finishes_iff (hi : ideIndex index = some i) :
    (ideProbeDevice s index).Finishes σ (n + 11) ↔
      (let s := s.setIde i .absent
       let status := (σ 4).toUInt8
       if status = 0 then return (-1, s)
       else do
         let _ ← inbWhile (ideBase i + 7) (fun status => status &&& ataSrBsy ≠ 0) status
         let lba1 ← inb (ideBase i + 4)
         let lba2 ← inb (ideBase i + 5)
         if lba1 ≠ 0 ∨ lba2 ≠ 0 then return (-1, s) else ideIdentify s i : Io (Int × Driver)).Finishes
        (fun m => σ (m + 5)) n := by
  have hsplit : n + 11 = n + 1 + 1 + 1 + 1 + 1 + 1 + 4 + 1 := by omega
  rw [ideProbeDevice, hi, hsplit]
  simp only [finishes_outb_bind, finishes_delay_bind, finishes_inb_bind]

/-- A probe is through once a status ends its loop. -/
theorem ideProbeDevice_finishes (s : Driver) (index : Int) (hk : ¬ Busy (σ (4 + k))) :
    (ideProbeDevice s index).Finishes σ (probeAccesses + k) := by
  cases hi : ideIndex index with
  | none =>
    rw [ideProbeDevice, hi]
    exact Metered.finishes_pure _ _
  | some i =>
    have hsplit : probeAccesses + k = k + (2 + (4 + (2 * ataPollAttempts + 1) + 256)) + 11 := by
      unfold probeAccesses
      omega
    rw [hsplit, ideProbeDevice_finishes_iff hi]
    dsimp only
    split
    · exact Metered.finishes_pure _ _
    · have hloop : (inbWhile (ideBase i + 7) (fun status => status &&& ataSrBsy ≠ 0) (σ 4).toUInt8).Finishes
          (fun m => σ (m + 5)) k := by
        rw [inbWhile_finishes_iff]
        cases k with
        | zero => exact .inl (not_not.mp hk)
        | succ k =>
          refine .inr ⟨k, Nat.lt_succ_self k, ?_⟩
          have hindex : k + 5 = 4 + (k + 1) := by omega
          rwa [hindex]
      have hrest := ((inb_bounded (ideBase i + 4)).bind fun lba1 => (inb_bounded (ideBase i + 5)).bind
        fun lba2 => Metered.Bounded.ite (c := lba1 ≠ 0 ∨ lba2 ≠ 0)
          (fun _ => (Metered.Bounded.pure ((-1 : Int), s.setIde i .absent)).mono (Nat.zero_le _))
          fun _ => ideIdentify_bounded (s.setIde i .absent) i)
      exact hloop.bind fun _ _ _ => (hrest _).mono (by omega)

/-- A probe that is through has seen one. -/
theorem Finishes.settled (hi : ideIndex index = some i) (h : (ideProbeDevice s index).Finishes σ n) :
    ∃ k ≤ n, ¬ Busy (σ (4 + k)) := by
  have hlong := (ideProbeDevice_finishes_iff hi).mp (h.mono (Nat.le_add_right n 11))
  dsimp only at hlong
  split at hlong
  · rename_i h0
    refine ⟨0, Nat.zero_le n, ?_⟩
    unfold Busy
    rw [Nat.add_zero, h0]
    decide
  · obtain ⟨_, log, hrun, hlen, _⟩ := Metered.finishes_bind.mp hlong
    rcases inbWhile_finishes_iff.mp (hrun.finishes hlen) with h0 | ⟨k, hk, hend⟩
    · exact ⟨0, Nat.zero_le n, not_not.mpr h0⟩
    · refine ⟨k + 1, hk, ?_⟩
      have hindex : 4 + (k + 1) = k + 5 := by omega
      rwa [hindex]

end Probe

/-! ### The scan -/

section Scan
variable {σ : Nat → UInt32} {s s' : Driver} {log : Trace} {n : Nat}

/-- The scan has been through its first `i` devices. -/
def ScannedTo (s : Driver) (i : Nat) (σ : Nat → UInt32) (s' : Driver) (log : Trace) : Prop :=
  (((List.finRange 4).take i).foldlM scanIdeDevice {s with devices := []}).Runs σ s' log

theorem scanIdeDevice_finishes {i : Fin 4} (h : (ideProbeDevice s i.val).Finishes σ n) :
    (scanIdeDevice s i).Finishes σ n := by
  have hboth := h.bind (m := 0) (f := fun x : Int × Driver =>
    (if x.1 = 0 ∧ (x.2.ide i).present then
      return addDeviceMap x.2
        { source := .ide i
          ioBase := ideBase i
          slave := slaveBit i
          sectors28 := (x.2.ide i).sectors28
          model := kstrcpy (fun _ => 0) (cstr (x.2.ide i).model) }
    else return x.2 : Io Driver)) fun x _ _ => by
      split <;> exact Metered.finishes_pure _ 0
  exact hboth

/-- Devices that are all probed in time. -/
theorem scanIde_finishes {B : Nat}
    (h : ∀ (i : Fin 4) s' log, ScannedTo s i.val σ s' log →
      (ideProbeDevice s' i.val).Finishes (Event.rest σ log) B) : (scanIde s).Finishes σ (4 * B) := by
  have hprefix : ∀ i ≤ 4,
      (((List.finRange 4).take i).foldlM scanIdeDevice {s with devices := []}).Finishes σ (i * B) := by
    intro i hi
    induction i with
    | zero => exact Metered.finishes_pure _ _
    | succ i ih =>
      have hlt : i < (List.finRange 4).length := by
        rw [List.length_finRange]
        omega
      rw [List.take_succ_eq_append_getElem hlt, List.foldlM_append, Nat.succ_mul]
      refine (ih (by omega)).bind fun s' log hrun => ?_
      simp only [List.foldlM_cons, List.foldlM_nil, bind_pure, List.getElem_finRange]
      exact scanIdeDevice_finishes (h ⟨i, by omega⟩ s' log hrun)
  exact hprefix 4 (Nat.le_refl 4)

/-- A scan that is through has been through every device. -/
theorem scanIde_probes (h : (scanIde s).Finishes σ n) (i : Fin 4) (hto : ScannedTo s i.val σ s' log) :
    (ideProbeDevice s' i.val).Finishes (Event.rest σ log) n := by
  have hlt : i.val < (List.finRange 4).length := by
    rw [List.length_finRange]
    exact i.isLt
  have hsplit : List.finRange 4 = (List.finRange 4).take i.val ++ i :: (List.finRange 4).drop (i.val + 1) := by
    conv_lhs => rw [← List.take_append_drop i.val (List.finRange 4), List.drop_eq_getElem_cons hlt]
    simp
  rw [scanIde, hsplit, List.foldlM_append] at h
  obtain ⟨s₁, log₁, hrun, hlen, hrest⟩ := Metered.finishes_bind.mp h
  obtain ⟨rfl, rfl⟩ := hrun.unique hto
  rw [List.foldlM_cons] at hrest
  obtain ⟨_, log₂, hrun₂, hlen₂, _⟩ := Metered.finishes_bind.mp hrest
  obtain ⟨x, log₃, _, hrun₃, _, rfl⟩ := Metered.runs_bind.mp hrun₂
  rw [List.length_append] at hlen₂
  exact hrun₃.finishes (by omega)

end Scan

/-- **Probing ends exactly where the drives stop being busy.** Ports that return the sequences `S` leave a
probe at most so many accesses, for one bound, when for one bound the status that is read after `IDENTIFY`,
the fifth value and on, stops showing `BSY`; and so for each of the four probes of a scan. -/
theorem probing_ends_iff (S : Set (Nat → UInt32)) :
    ((∃ N, ∀ σ ∈ S, ∀ s index, (ideProbeDevice s index).Finishes σ N) ↔
      ∃ B, ∀ σ ∈ S, ∃ k ≤ B, ¬ Busy (σ (4 + k))) ∧
    ((∃ N, ∀ σ ∈ S, ∀ s, (scanIde s).Finishes σ N) ↔
      ∃ B, ∀ σ ∈ S, ∀ s (i : Fin 4) s' log, ScannedTo s i.val σ s' log →
        ∃ k ≤ B, ¬ Busy (Event.rest σ log (4 + k))) := by
  refine ⟨⟨fun ⟨N, hN⟩ => ⟨N, fun σ hσ => ?_⟩, fun ⟨B, hB⟩ => ⟨probeAccesses + B, fun σ hσ s index => ?_⟩⟩,
    ⟨fun ⟨N, hN⟩ => ⟨N, fun σ hσ s i s' log hto => ?_⟩,
      fun ⟨B, hB⟩ => ⟨4 * (probeAccesses + B), fun σ hσ s => ?_⟩⟩⟩
  · exact Finishes.settled (ideIndex_ofNat 0) (hN σ hσ .initial _)
  · obtain ⟨k, hk, hend⟩ := hB σ hσ
    exact (ideProbeDevice_finishes s index hend).mono (by omega)
  · exact Finishes.settled (ideIndex_ofNat i) (scanIde_probes (hN σ hσ s) i hto)
  · refine scanIde_finishes fun i s' log hto => ?_
    obtain ⟨k, hk, hend⟩ := hB σ hσ s i s' log hto
    exact (ideProbeDevice_finishes s' i.val hend).mono (by omega)

/-- A bus on which nothing answers reads `0xFF`: no budget is enough for a probe. -/
theorem floating_bus_hangs (s : Driver) (i : Fin 4) (n : Nat) :
    ¬ (ideProbeDevice s i.val).Finishes (fun _ => 0xFF) n := by
  intro h
  obtain ⟨k, _, hend⟩ := Finishes.settled (ideIndex_ofNat i) h
  exact hend (by decide)

theorem probing_unbounded : ¬ ∃ N, ∀ σ : Nat → UInt32,
    (∀ s index, (ideProbeDevice s index).Finishes σ N) ∧ ∀ s, (scanIde s).Finishes σ N := by
  rintro ⟨N, hN⟩
  exact floating_bus_hangs .initial 0 N ((hN fun _ => 0xFF).1 .initial _)

end FurOS.Ata
