import AesdChar.Seek

set_option autoImplicit false

namespace AesdChar

open Concat CyclicQueue HeapStore

-- buffer.entry[index].size where the array has such an element.
def entrySizeInBounds (dev : AesdDev) (index : Nat) : Option UInt64 :=
  if bound : index < 10 then some dev.buffer.entry[index].size else none

def offsetInBounds (dev : AesdDev) : Nat → Option UInt64
  | 0 => some 0
  | count + 1 =>
      match offsetInBounds dev count with
      | none => none
      | some offset => (entrySizeInBounds dev count).map fun size => offset + size

-- aesd_ioctl with the bounds of the array. none: it indexes buffer.entry
-- outside 0 to 9.
def aesdIoctlInBounds (kernel : Kernel) (filp : Filp) (cmd : UInt32) (seekTo : AesdSeekto) (env : IoctlEnv) :
    Option CallResult :=
  if filp.privateData = false then some ⟨kernel, filp.fPos, -ePerm, []⟩
  else if cmd ≠ aesdcharIocseekto then some ⟨kernel, filp.fPos, -eNoTty, []⟩
  else if env.copyFromUser = false then some ⟨kernel, filp.fPos, -eFault, []⟩
  else if env.lock = false then some ⟨kernel, filp.fPos, -eRestartSys, []⟩
  else if 10 < seekTo.writeCmd then some ⟨kernel, filp.fPos, -eInval, []⟩
  else match entrySizeInBounds kernel.dev seekTo.writeCmd.toNat with
    | none => none
    | some size =>
        if size ≤ seekTo.writeCmdOffset.toUInt64 then some ⟨kernel, filp.fPos, -eInval, []⟩
        else (offsetInBounds kernel.dev seekTo.writeCmd.toNat).map fun offset =>
          ⟨kernel, (offset + seekTo.writeCmdOffset.toUInt64).toInt64, 0, []⟩

theorem offset_in_bounds (dev : AesdDev) (count : Nat) (bound : count ≤ 10) :
    offsetInBounds dev count = some (offsetOfSlot dev count) := by
  induction count with
  | zero => rfl
  | succ count ih =>
      have inside : count < 10 := by omega
      simp [offsetInBounds, offsetOfSlot, ih (by omega), entrySizeInBounds, entrySize, inside]

-- The first access decides: the sum only goes over slots before it.
theorem ioctl_in_bounds (kernel : Kernel) (filp : Filp) (cmd : UInt32) (seekTo : AesdSeekto) (env : IoctlEnv)
    (other : seekTo.writeCmd.toNat ≠ 10) :
    aesdIoctlInBounds kernel filp cmd seekTo env = some (aesdIoctl kernel filp cmd seekTo env) := by
  by_cases beyond : 10 < seekTo.writeCmd
  · unfold aesdIoctlInBounds aesdIoctl
    simp only [beyond, true_or, if_true]
    repeat' split
    all_goals rfl
  · have inside : seekTo.writeCmd.toNat < 10 := by
      by_contra large
      refine beyond (UInt32.lt_iff_toNat_lt.mpr ?_)
      simp only [UInt32.reduceToNat]
      omega
    have size :
      entrySizeInBounds kernel.dev seekTo.writeCmd.toNat = some (entrySize kernel.dev seekTo.writeCmd.toNat) := by
      simp [entrySizeInBounds, entrySize, inside]
    simp only [aesdIoctlInBounds, aesdIoctl, beyond, false_or, if_false, size,
      offset_in_bounds kernel.dev _ (Nat.le_of_lt inside), Option.map_some]
    repeat' split
    all_goals rfl

theorem ioctl_out_of_bounds (kernel : Kernel) (filp : Filp) (seekTo : AesdSeekto) (opened : filp.privateData = true)
    (ten : seekTo.writeCmd.toNat = 10) :
    aesdIoctlInBounds kernel filp aesdcharIocseekto seekTo ⟨true, true⟩ = none := by
  have supported : ¬ 10 < seekTo.writeCmd := fun beyond => by
    have large := UInt32.lt_iff_toNat_lt.mp beyond
    simp only [UInt32.reduceToNat] at large
    omega
  simp [aesdIoctlInBounds, opened, supported, entrySizeInBounds, ten]

-- The four calls with the bounds of the array.
def callInBounds (api : KernelApi) (kernel : Kernel) (filp : Filp) : DriverCall → Option CallResult
  | .ioctl cmd seekTo env => aesdIoctlInBounds kernel filp cmd seekTo env
  | call => driverCall api kernel filp call

def SeeksTen : DriverCall → Prop
  | .ioctl cmd seekTo env => cmd = aesdcharIocseekto ∧ seekTo.writeCmd = 10 ∧ env.copyFromUser = true ∧ env.lock = true
  | _ => False

theorem ioctl_defined (kernel : Kernel) (filp : Filp) (cmd : UInt32) (seekTo : AesdSeekto) (env : IoctlEnv)
    (opened : filp.privateData = true) :
    aesdIoctlInBounds kernel filp cmd seekTo env = none ↔ SeeksTen (.ioctl cmd seekTo env) := by
  constructor
  · intro undefined
    have ten : seekTo.writeCmd.toNat = 10 := by
      by_contra other
      rw [ioctl_in_bounds kernel filp cmd seekTo env other] at undefined
      cases undefined
    unfold aesdIoctlInBounds at undefined
    rw [if_neg (by simp [opened])] at undefined
    by_cases known : cmd = aesdcharIocseekto
    · by_cases copied : env.copyFromUser = true
      · by_cases locked : env.lock = true
        · exact ⟨known, UInt32.toNat_inj.mp ten, copied, locked⟩
        · simp [known, copied, locked] at undefined
      · simp [known, copied] at undefined
    · simp [known] at undefined
  · rintro ⟨rfl, ten, copied, locked⟩
    obtain ⟨copyFromUser, lock⟩ := env
    dsimp only at copied locked
    subst copied locked
    exact ioctl_out_of_bounds kernel filp seekTo opened (by rw [ten]; rfl)

def OutOfRange (lines : List Bytes) (seekTo : AesdSeekto) : Prop :=
  (lines.getD seekTo.writeCmd.toNat []).length ≤ seekTo.writeCmdOffset.toNat

instance (lines : List Bytes) (seekTo : AesdSeekto) : Decidable (OutOfRange lines seekTo) :=
  inferInstanceAs (Decidable (_ ≤ _))

structure SeekGuarded (kernel : Kernel) (filp : Filp) (lines : List Bytes) (seekTo : AesdSeekto) : Prop where
  refused : OutOfRange lines seekTo →
    aesdIoctl kernel filp aesdcharIocseekto seekTo ⟨true, true⟩ = ⟨kernel, filp.fPos, -eInval, []⟩
  bounds : ∀ cmd env, aesdIoctlInBounds kernel filp cmd seekTo env ≠ none

-- Slot c of the array holds the command number c - out_offs, modulo 10.
def commandInSlot (buffer : AesdCircularBuffer) (slot : Nat) : Nat := (slot + 10 - buffer.outOffs.toNat) % 10

structure SlotGuards (buffer : AesdCircularBuffer) (lines : List Bytes) (seekTo : AesdSeekto) : Prop where
  notTen : seekTo.writeCmd.toNat ≠ 10
  short : seekTo.writeCmd.toNat < 10 → OutOfRange lines seekTo →
    (lines.getD (commandInSlot buffer seekTo.writeCmd.toNat) []).length ≤ seekTo.writeCmdOffset.toNat

theorem slot_holds_command (buffer : AesdCircularBuffer) (content : List AesdBufferEntry) (rep : RingRep buffer content)
    (slot : Nat) (bound : slot < 10) : slotAt buffer slot = content.getD (commandInSlot buffer slot) zeroEntry := by
  have inside := rep.window.inside
  have turn : (buffer.outOffs.toNat + commandInSlot buffer slot) % 10 = slot := by
    unfold commandInSlot
    omega
  have cell := rep.window.cell (commandInSlot buffer slot) (Nat.mod_lt _ (by decide))
  rwa [turn] at cell

theorem slot_sizes_command (api : KernelApi) (kernel : Kernel) (content : List AesdBufferEntry) (lines : List Bytes)
    (working : Option Bytes) (rep : DevRep api kernel content lines working) (slot : Nat) (bound : slot < 10) :
    (slotSizes kernel.dev.buffer).getD slot 0 = (lines.getD (commandInSlot kernel.dev.buffer slot) []).length := by
  have same := rep.stored.length_eq
  rw [slot_sizes_get _ slot bound, slot_holds_command _ content rep.ring slot bound]
  by_cases used : commandInSlot kernel.dev.buffer slot < content.length
  · exact (stored_get api kernel.heap content lines rep.stored _ used).size
  · rw [List.getD_eq_getElem?_getD, List.getD_eq_getElem?_getD, List.getElem?_eq_none (by omega),
      List.getElem?_eq_none (by omega)]
    rfl

theorem slot_bytes_command (api : KernelApi) (kernel : Kernel) (content : List AesdBufferEntry) (lines : List Bytes)
    (working : Option Bytes) (rep : DevRep api kernel content lines working) (slot : Nat) (bound : slot < 10) :
    entryBytes kernel.heap (slotAt kernel.dev.buffer slot) =
      some (lines.getD (commandInSlot kernel.dev.buffer slot) []) := by
  have same := rep.stored.length_eq
  rw [slot_holds_command _ content rep.ring slot bound]
  by_cases used : commandInSlot kernel.dev.buffer slot < content.length
  · exact block_rep_bytes api kernel.heap _ _ (stored_get api kernel.heap content lines rep.stored _ used)
  · rw [List.getD_eq_getElem?_getD, List.getD_eq_getElem?_getD, List.getElem?_eq_none (by omega),
      List.getElem?_eq_none (by omega)]
    rfl

theorem seek_guarded_iff (api : KernelApi) (kernel : Kernel) (content : List AesdBufferEntry) (lines : List Bytes)
    (working : Option Bytes) (filp : Filp) (seekTo : AesdSeekto) (rep : DevRep api kernel content lines working)
    (opened : filp.privateData = true) :
    SeekGuarded kernel filp lines seekTo ↔ SlotGuards kernel.dev.buffer lines seekTo := by
  constructor
  · intro guarded
    have notTen : seekTo.writeCmd.toNat ≠ 10 := fun ten =>
      guarded.bounds aesdcharIocseekto ⟨true, true⟩ (ioctl_out_of_bounds kernel filp seekTo opened ten)
    refine ⟨notTen, fun command outside => ?_⟩
    rw [← slot_sizes_command api kernel content lines working rep _ command]
    rcases aesd_ioctl_seek api kernel content lines working filp seekTo rep opened command with
      ⟨_, fPos, ran, _⟩ | ⟨beyond, _⟩
    · have ret := congrArg CallResult.ret (ran.symm.trans (guarded.refused outside))
      exact absurd ret (by decide : (0 : Int64) ≠ -eInval)
    · exact beyond
  · intro guards
    refine ⟨fun outside => ?_, fun cmd env => ?_⟩
    · by_cases command : seekTo.writeCmd.toNat < 10
      · have short := guards.short command outside
        rw [← slot_sizes_command api kernel content lines working rep _ command] at short
        rcases aesd_ioctl_seek api kernel content lines working filp seekTo rep opened command with
          ⟨held, _⟩ | ⟨_, ran⟩
        · omega
        · exact ran
      · have notTen := guards.notTen
        have beyond : 10 < seekTo.writeCmd := by
          refine UInt32.lt_iff_toNat_lt.mpr ?_
          simp only [UInt32.reduceToNat]
          omega
        simp [aesdIoctl, opened, beyond]
    · rw [ioctl_in_bounds kernel filp cmd seekTo env guards.notTen]
      simp

theorem ioctl_refuses_exactly (api : KernelApi) (events : List Event) (kernel : Kernel) (filp : Filp)
    (seekTo : AesdSeekto) (run : Run api events kernel) (opened : filp.privateData = true) :
    ∃ lines, retained kernel = some lines ∧
      (SeekGuarded kernel filp lines seekTo ↔ SlotGuards kernel.dev.buffer lines seekTo) ∧
      (kernel.dev.buffer.outOffs = 0 → (SlotGuards kernel.dev.buffer lines seekTo ↔ seekTo.writeCmd.toNat ≠ 10)) := by
  obtain ⟨content, working, rep⟩ := run_rep api events kernel run
  refine ⟨_, dev_rep_retained api kernel content _ working rep,
    seek_guarded_iff api kernel content _ working filp seekTo rep opened, fun start => ?_⟩
  refine ⟨fun guards => guards.notTen, fun notTen => ⟨notTen, fun command outside => ?_⟩⟩
  have unrotated : commandInSlot kernel.dev.buffer seekTo.writeCmd.toNat = seekTo.writeCmd.toNat := by
    rw [commandInSlot, start, UInt8.toNat_zero]
    omega
  rw [unrotated]
  exact outside

theorem ioctl_refuses_first_command :
    ∃ events kernel lines, Run stockKernel events kernel ∧ retained kernel = some lines ∧
      SeekGuarded kernel ⟨true, 0⟩ lines ⟨1, 0⟩ := by
  obtain ⟨events, kernel, ran, run⟩ := sample_run [(sampleWrite [97, 10] 4096 8192).toDriver] (by decide)
  obtain ⟨lines, stored, guarded, unrotated⟩ := ioctl_refuses_exactly stockKernel events kernel ⟨true, 0⟩ ⟨1, 0⟩ run rfl
  have start : (runCalls stockKernel loadedModule [(sampleWrite [97, 10] 4096 8192).toDriver]).map
      (fun final => final.2.dev.buffer.outOffs) = some 0 := by decide
  rw [ran, Option.map_some] at start
  exact ⟨events, kernel, lines, run, stored,
    guarded.mpr ((unrotated (Option.some.inj start)).mpr (by decide))⟩

def seekOutcome (kernel : Kernel) (seekTo : AesdSeekto) : Option (List Bytes) × Int64 × Int64 :=
  let result := aesdIoctl kernel ⟨true, 0⟩ aesdcharIocseekto seekTo ⟨true, true⟩
  (retained kernel, result.fPos, result.ret)

theorem seek_accepted (calls : List (Filp × DriverCall)) (seekTo : AesdSeekto) (lines : List Bytes) (fPos : Int64)
    (outside : OutOfRange lines seekTo)
    (ran : (runCalls stockKernel loadedModule calls).map (fun final => seekOutcome final.2 seekTo) =
      some (some lines, fPos, 0)) :
    ∃ events kernel, Run stockKernel events kernel ∧ retained kernel = some lines ∧
      ¬ SeekGuarded kernel ⟨true, 0⟩ lines seekTo := by
  obtain ⟨⟨events, kernel⟩, reached, outcome⟩ := Option.map_eq_some_iff.mp ran
  simp only [seekOutcome, Prod.mk.injEq] at outcome
  have run := run_calls_reached stockKernel calls [] events loadedModule kernel .loaded reached
  refine ⟨_, kernel, run, outcome.1, fun guarded => ?_⟩
  have ret := outcome.2.2
  rw [guarded.refused outside] at ret
  exact absurd ret (by decide : -eInval ≠ 0)

-- Command 10 with "ab" pending, and a command of two bytes sought in a slot of four.
theorem ioctl_accepts_out_of_range :
    (∃ events kernel, Run stockKernel events kernel ∧ retained kernel = some [] ∧
      ¬ SeekGuarded kernel ⟨true, 0⟩ [] ⟨10, 5⟩) ∧
    ∃ events kernel lines, Run stockKernel events kernel ∧ retained kernel = some lines ∧ lines.length = 10 ∧
      ¬ SeekGuarded kernel ⟨true, 0⟩ lines ⟨0, 2⟩ := by
  refine ⟨seek_accepted [(sampleWrite [97, 98] 4096 8192).toDriver] ⟨10, 5⟩ [] 5 (by decide) (by decide), ?_⟩
  obtain ⟨events, kernel, run, stored, accepted⟩ := seek_accepted rotatedCalls ⟨0, 2⟩
    [[49, 10], [50, 10], [51, 10], [52, 10], [53, 10], [54, 10], [55, 10], [56, 10], [57, 10], [65, 65, 65, 10]] 2
    (by decide) (by decide)
  exact ⟨events, kernel, _, run, stored, rfl, accepted⟩

end AesdChar
