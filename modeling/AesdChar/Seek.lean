import AesdChar.ReadRun

set_option autoImplicit false

namespace AesdChar

open Concat CyclicQueue HeapStore

def ReadsOut (kernel : Kernel) (filp : Filp) (text : Bytes) : Prop :=
  ∀ buf, buf ≠ nullPtr → ∀ counts : Nat → UInt64, (∀ i, counts i ≠ 0) →
    ∃ calls final results, readRun kernel filp buf ((List.range calls).map counts) = some (final, results) ∧
      (∀ result ∈ results, 0 < result.ret) ∧ delivered results = text ∧
      aesdRead kernel final buf (counts calls) final.fPos ⟨true, true⟩ = some ⟨kernel, final.fPos, 0, []⟩

theorem reads_out_iff (api : KernelApi) (kernel : Kernel) (content : List AesdBufferEntry) (lines : List Bytes)
    (working : Option Bytes) (filp : Filp) (text : Bytes) (rep : DevRep api kernel content lines working)
    (opened : filp.privateData = true) :
    ReadsOut kernel filp text ↔ text = lines.flatten.drop (position filp.fPos) := by
  constructor
  · intro reads
    obtain ⟨calls, final, results, ran, _, same, last⟩ := reads 4096 (by decide) (fun _ => 1) (fun _ => by decide)
    obtain ⟨reached, seen, ranAgain, finalOpened, data, moved⟩ :=
      read_run_delivers api kernel content lines working filp 4096 ((List.range calls).map fun _ => 1) rep
        (by decide) opened
    cases Option.some.inj (ran.symm.trans ranAgain)
    obtain ⟨out, fPos, read, _, _, _, _, empty⟩ :=
      aesd_read_copied api kernel content lines working final 4096 1 final.fPos rep (by decide) finalOpened
    have nothing : out = [] := (congrArg CallResult.out (Option.some.inj (last.symm.trans read))).symm
    rcases empty.mp nothing with zero | past
    · exact absurd zero (by decide)
    · rw [same] at data moved
      rw [data, List.take_of_length_le]
      rw [List.length_drop]
      omega
  · intro same buf given counts positive
    obtain ⟨calls, final, results, _, ran, data, text, last⟩ :=
      reads_to_end api kernel content lines working filp buf counts _ rep given opened positive rfl
    exact ⟨calls, final, results, ran, data, text.trans same.symm, last⟩

def slotSizes (buffer : AesdCircularBuffer) : List Nat := (List.range 10).map fun slot =>
    (slotAt buffer slot).size.toNat

theorem slot_sizes_get (buffer : AesdCircularBuffer) (slot : Nat) (bound : slot < 10) :
    (slotSizes buffer).getD slot 0 = (slotAt buffer slot).size.toNat := by
  simp [slotSizes, List.getD_eq_getElem?_getD, bound]

theorem slot_size_fits (api : KernelApi) (kernel : Kernel) (content : List AesdBufferEntry) (lines : List Bytes)
    (working : Option Bytes) (rep : DevRep api kernel content lines working) (slot : Nat) (bound : slot < 10) :
    (slotAt kernel.dev.buffer slot).size.toNat ≤ api.kmallocMaxSize := by
  obtain ⟨i, iBound, reached⟩ := wrap_surjective 10 kernel.dev.buffer.outOffs.toNat slot rep.ring.window.inside bound
  rw [← reached, rep.ring.window.cell i iBound]
  by_cases inside : i < content.length
  · have block := stored_get api kernel.heap content lines rep.stored i inside
    rw [block.size]
    exact block.fits
  · rw [List.getD_eq_getElem?_getD, List.getElem?_eq_none (by omega)]
    exact Nat.zero_le _

theorem entry_size_slot (dev : AesdDev) (slot : Nat) (bound : slot < 10) :
    entrySize dev slot = (slotAt dev.buffer slot).size := by
  rw [entrySize, dif_pos bound, slot_at_lt dev.buffer slot bound]

theorem offset_of_slot_exact (api : KernelApi) (kernel : Kernel) (content : List AesdBufferEntry) (lines : List Bytes)
    (working : Option Bytes) (rep : DevRep api kernel content lines working) (count : Nat) (bound : count ≤ 10) :
    (offsetOfSlot kernel.dev count).toNat = ((slotSizes kernel.dev.buffer).take count).sum ∧
    ((slotSizes kernel.dev.buffer).take count).sum ≤ count * api.kmallocMaxSize := by
  induction count with
  | zero => exact ⟨rfl, Nat.zero_le _⟩
  | succ count ih =>
      obtain ⟨exact, small⟩ := ih (by omega)
      have addressable := api.addressable
      have fits := slot_size_fits api kernel content lines working rep count (by omega)
      have grown := sum_take_succ (slotSizes kernel.dev.buffer) count
      rw [slot_sizes_get _ count (by omega)] at grown
      have linear : (count + 1) * api.kmallocMaxSize = count * api.kmallocMaxSize + api.kmallocMaxSize :=
        Nat.succ_mul _ _
      have below : count * api.kmallocMaxSize ≤ 9 * api.kmallocMaxSize := Nat.mul_le_mul_right _ (by omega)
      refine ⟨?_, by omega⟩
      rw [offsetOfSlot, entry_size_slot kernel.dev count (by omega), UInt64.toNat_add, exact, grown, Nat.mod_eq_of_lt]
      omega

-- Slot c holds more than o bytes, and the slots before it hold as many bytes
-- as the c oldest commands.
structure SlotsAgree (buffer : AesdCircularBuffer) (lines : List Bytes) (seekTo : AesdSeekto) : Prop where
  inside : seekTo.writeCmdOffset.toNat < (slotSizes buffer).getD seekTo.writeCmd.toNat 0
  before : ((slotSizes buffer).take seekTo.writeCmd.toNat).sum =
    ((lines.map List.length).take seekTo.writeCmd.toNat).sum

structure SeekAgrees (kernel : Kernel) (filp : Filp) (lines : List Bytes) (seekTo : AesdSeekto) : Prop where
  ret : (aesdIoctl kernel filp aesdcharIocseekto seekTo ⟨true, true⟩).ret = 0
  same : (aesdIoctl kernel filp aesdcharIocseekto seekTo ⟨true, true⟩).kernel = kernel
  reads : ReadsOut kernel { filp with fPos := (aesdIoctl kernel filp aesdcharIocseekto seekTo ⟨true, true⟩).fPos }
    ((lines.drop seekTo.writeCmd.toNat).flatten.drop seekTo.writeCmdOffset.toNat)

theorem aesd_ioctl_seek (api : KernelApi) (kernel : Kernel) (content : List AesdBufferEntry) (lines : List Bytes)
    (working : Option Bytes) (filp : Filp) (seekTo : AesdSeekto) (rep : DevRep api kernel content lines working)
    (opened : filp.privateData = true) (command : seekTo.writeCmd.toNat < 10) :
    (seekTo.writeCmdOffset.toNat < (slotSizes kernel.dev.buffer).getD seekTo.writeCmd.toNat 0 ∧
      ∃ fPos, aesdIoctl kernel filp aesdcharIocseekto seekTo ⟨true, true⟩ = ⟨kernel, fPos, 0, []⟩ ∧
        position fPos = ((slotSizes kernel.dev.buffer).take seekTo.writeCmd.toNat).sum + seekTo.writeCmdOffset.toNat) ∨
    ((slotSizes kernel.dev.buffer).getD seekTo.writeCmd.toNat 0 ≤ seekTo.writeCmdOffset.toNat ∧
      aesdIoctl kernel filp aesdcharIocseekto seekTo ⟨true, true⟩ = ⟨kernel, filp.fPos, -eInval, []⟩) := by
  have addressable := api.addressable
  have fits := slot_size_fits api kernel content lines working rep _ command
  obtain ⟨exact, small⟩ := offset_of_slot_exact api kernel content lines working rep seekTo.writeCmd.toNat (by omega)
  have below : seekTo.writeCmd.toNat * api.kmallocMaxSize ≤ 9 * api.kmallocMaxSize := Nat.mul_le_mul_right _ (by omega)
  have supported : ¬ 10 < seekTo.writeCmd := fun beyond => by
    have large := UInt32.lt_iff_toNat_lt.mp beyond
    simp only [UInt32.reduceToNat] at large
    omega
  rw [slot_sizes_get _ _ command]
  by_cases outside : entrySize kernel.dev seekTo.writeCmd.toNat ≤ seekTo.writeCmdOffset.toUInt64
  · have beyond := UInt64.le_iff_toNat_le.mp outside
    rw [entry_size_slot kernel.dev _ command, UInt32.toNat_toUInt64] at beyond
    exact Or.inr ⟨beyond, by simp [aesdIoctl, opened, outside]⟩
  · have within : seekTo.writeCmdOffset.toNat < (slotAt kernel.dev.buffer seekTo.writeCmd.toNat).size.toNat := by
      by_contra beyond
      apply outside
      rw [UInt64.le_iff_toNat_le, entry_size_slot kernel.dev _ command, UInt32.toNat_toUInt64]
      omega
    refine Or.inl ⟨within, _, by simp only [aesdIoctl, opened, outside, supported]; rfl, ?_⟩
    rw [position, UInt64.toUInt64_toInt64, UInt64.toNat_add, exact, UInt32.toNat_toUInt64, Nat.mod_eq_of_lt]
    omega

theorem seek_agrees_iff (api : KernelApi) (kernel : Kernel) (content : List AesdBufferEntry) (lines : List Bytes)
    (working : Option Bytes) (filp : Filp) (seekTo : AesdSeekto) (rep : DevRep api kernel content lines working)
    (opened : filp.privateData = true) (command : seekTo.writeCmd.toNat < lines.length)
    (inside : seekTo.writeCmdOffset.toNat < (lines.getD seekTo.writeCmd.toNat []).length) :
    SeekAgrees kernel filp lines seekTo ↔ SlotsAgree kernel.dev.buffer lines seekTo := by
  have bounded := rep.ring.window.bounded
  have same := rep.stored.length_eq
  have target := flatten_drop_piece lines seekTo.writeCmd.toNat seekTo.writeCmdOffset.toNat
  have within : ((lines.map List.length).take seekTo.writeCmd.toNat).sum + seekTo.writeCmdOffset.toNat <
      lines.flatten.length := by
    rw [List.length_flatten]
    refine locates_below _ _ seekTo.writeCmd.toNat seekTo.writeCmdOffset.toNat ⟨?_, rfl⟩
    simpa [List.getD_eq_getElem?_getD, command] using inside
  rcases aesd_ioctl_seek api kernel content lines working filp seekTo rep opened (by omega) with
    ⟨held, fPos, ran, moved⟩ | ⟨beyond, ran⟩
  · have reads := reads_out_iff api kernel content lines working { filp with fPos }
      ((lines.drop seekTo.writeCmd.toNat).flatten.drop seekTo.writeCmdOffset.toNat) rep opened
    rw [moved, ← target] at reads
    constructor
    · intro agrees
      have text := agrees.reads
      rw [ran, ← target] at text
      have lengths := congrArg List.length (reads.mp text)
      rw [List.length_drop, List.length_drop] at lengths
      exact ⟨held, by omega⟩
    · intro slots
      refine ⟨by rw [ran], by rw [ran], ?_⟩
      rw [ran, ← target]
      exact reads.mpr (by rw [slots.before])
  · constructor
    · intro agrees
      have ret := agrees.ret
      rw [ran] at ret
      exact absurd ret (by decide : -eInval ≠ 0)
    · intro slots
      have held := slots.inside
      omega

theorem slots_agree_unrotated (api : KernelApi) (kernel : Kernel) (content : List AesdBufferEntry) (lines : List Bytes)
    (working : Option Bytes) (seekTo : AesdSeekto) (rep : DevRep api kernel content lines working)
    (start : kernel.dev.buffer.outOffs = 0) (command : seekTo.writeCmd.toNat < lines.length)
    (inside : seekTo.writeCmdOffset.toNat < (lines.getD seekTo.writeCmd.toNat []).length) :
    SlotsAgree kernel.dev.buffer lines seekTo := by
  have bounded := rep.ring.window.bounded
  have same := rep.stored.length_eq
  have slots : ∀ slot, slot < lines.length →
      (slotSizes kernel.dev.buffer).getD slot 0 = (lines.map List.length).getD slot 0 := by
    intro slot bound
    have cell := rep.ring.window.cell slot (by omega)
    have block := stored_get api kernel.heap content lines rep.stored slot (by omega)
    rw [start, UInt8.toNat_zero, Nat.zero_add, slot_at_mod] at cell
    rw [slot_sizes_get _ slot (by omega), cell, block.size]
    simp [List.getD_eq_getElem?_getD, bound]
  have sums : ∀ count, count ≤ lines.length →
      ((slotSizes kernel.dev.buffer).take count).sum = ((lines.map List.length).take count).sum := by
    intro count bound
    induction count with
    | zero => rfl
    | succ count ih => rw [sum_take_succ, sum_take_succ, ih (by omega), slots count (by omega)]
  refine ⟨?_, sums _ (by omega)⟩
  rw [slots _ command]
  simpa [List.getD_eq_getElem?_getD, command] using inside

/-- AESDCHAR_IOCSEEKTO counts the slots from slot 0, the readers count the commands from out_offs. -/
theorem ioctl_seek_agrees_exactly (api : KernelApi) (events : List Event) (kernel : Kernel) (filp : Filp)
    (seekTo : AesdSeekto) (run : Run api events kernel) (opened : filp.privateData = true) :
    ∃ lines, retained kernel = some lines ∧
      (seekTo.writeCmd.toNat < lines.length →
        seekTo.writeCmdOffset.toNat < (lines.getD seekTo.writeCmd.toNat []).length →
        (SeekAgrees kernel filp lines seekTo ↔ SlotsAgree kernel.dev.buffer lines seekTo) ∧
        (kernel.dev.buffer.outOffs = 0 → SlotsAgree kernel.dev.buffer lines seekTo)) := by
  obtain ⟨content, working, rep⟩ := run_rep api events kernel run
  refine ⟨_, dev_rep_retained api kernel content _ working rep, fun command inside => ⟨?_, fun start => ?_⟩⟩
  · exact seek_agrees_iff api kernel content _ working filp seekTo rep opened command inside
  · exact slots_agree_unrotated api kernel content _ working seekTo rep start command inside

def threeCommands : List (Filp × DriverCall) :=
  [(sampleWrite [97, 10] 4096 8192).toDriver, (sampleWrite [98, 99, 10] 4096 12288).toDriver,
    (sampleWrite [100, 10] 4096 16384).toDriver]

theorem ioctl_seek_agrees_second_command :
    ∃ events kernel, Run stockKernel events kernel ∧ retained kernel = some [[97, 10], [98, 99, 10], [100, 10]] ∧
      SeekAgrees kernel ⟨true, 0⟩ [[97, 10], [98, 99, 10], [100, 10]] ⟨1, 1⟩ ∧
      ReadsOut kernel ⟨true, (aesdIoctl kernel ⟨true, 0⟩ aesdcharIocseekto ⟨1, 1⟩ ⟨true, true⟩).fPos⟩
        [99, 10, 100, 10] := by
  obtain ⟨events, kernel, ran, run⟩ := sample_run threeCommands (by decide)
  obtain ⟨lines, stored, agrees⟩ := ioctl_seek_agrees_exactly stockKernel events kernel ⟨true, 0⟩ ⟨1, 1⟩ run rfl
  have kept : (runCalls stockKernel loadedModule threeCommands).map
      (fun final => (retained final.2, final.2.dev.buffer.outOffs)) =
      some (some [[97, 10], [98, 99, 10], [100, 10]], 0) := by decide
  rw [ran, Option.map_some, stored] at kept
  obtain ⟨same, start⟩ := Prod.mk.inj (Option.some.inj kept)
  cases Option.some.inj same
  obtain ⟨exact, unrotated⟩ := agrees (by decide) (by decide)
  have agreed := exact.mpr (unrotated start)
  exact ⟨events, kernel, run, stored, agreed, agreed.reads⟩

-- A full ring and then a command of four bytes, which takes slot 0.
def rotatedCalls : List (Filp × DriverCall) := fullRing ++ [(sampleWrite [65, 65, 65, 10] 4096 (8192 * 11)).toDriver]

theorem ioctl_seek_misses_after_eviction :
    ∃ events kernel lines, Run stockKernel events kernel ∧ retained kernel = some lines ∧ 1 < lines.length ∧
      0 < (lines.getD 1 []).length ∧ ¬ SeekAgrees kernel ⟨true, 0⟩ lines ⟨1, 0⟩ := by
  have kept :
    (runCalls stockKernel loadedModule rotatedCalls).map
    (fun final => (retained final.2, slotSizes final.2.dev.buffer)) =
      some (some [[49, 10], [50, 10], [51, 10], [52, 10], [53, 10], [54, 10], [55, 10], [56, 10], [57, 10],
        [65, 65, 65, 10]],
        [4, 2, 2, 2, 2, 2, 2, 2, 2, 2]) := by decide
  obtain ⟨events, kernel, ran, run⟩ := sample_run rotatedCalls (by decide)
  obtain ⟨content, working, rep⟩ := run_rep stockKernel events kernel run
  have stored := dev_rep_retained stockKernel kernel content _ working rep
  rw [ran, Option.map_some, stored] at kept
  obtain ⟨same, sizes⟩ := Prod.mk.inj (Option.some.inj kept)
  rw [Option.some.inj same] at rep stored
  refine ⟨events, kernel, _, run, stored, by decide, by decide, fun agrees => ?_⟩
  have slots :=
    (seek_agrees_iff stockKernel kernel content _ working ⟨true, 0⟩ ⟨1, 0⟩ rep rfl (by decide) (by decide)).mp agrees
  have before := slots.before
  rw [sizes] at before
  exact absurd before (by decide)

end AesdChar
