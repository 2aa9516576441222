import AesdChar.Statements

set_option autoImplicit false

namespace AesdChar

open HeapStore LockProgram

-- The four calls, statement by statement. exec_call_code below says that a call
-- running alone is the function of Device.

def aesdReadCode (buf : Ptr) (count : UInt64) (env : ReadEnv) : DriverCode :=
  if buf = nullPtr then .ret ⟨-eInval, []⟩
  else .step privateData fun opened =>
    if opened = false then .ret ⟨-ePerm, []⟩
    else .lock env.lock
      (.step findEntry fun found =>
        match found with
        | none => .unlock (.ret ⟨0, []⟩)
        | some (slot, retOffset) =>
            .step (retEntryAt slot) fun retEntry =>
            let bytesLeftInEntry : Int64 := (retEntry.size - retOffset).toInt64
            let bytesToReadOut := if count < bytesLeftInEntry.toUInt64 then count.toInt64 else bytesLeftInEntry
            .step (readBlock retEntry.buffptr retOffset.toNat bytesToReadOut.toUInt64.toNat) fun bytes =>
            if copyToUser env.copyToUser bytes then
              .step (advanceFPos bytesToReadOut) fun _ => .unlock (.ret ⟨bytesToReadOut, bytes⟩)
            else .unlock (.ret ⟨-eFault, []⟩))
      (.ret ⟨-eRestartSys, []⟩)

def writeDone (writeBuf : Ptr) (count : UInt64) : DriverCode :=
  .unlock (.step (kfreeBlock writeBuf) fun _ =>
    .step (advanceFPos count.toInt64) fun _ => .ret ⟨count.toInt64, []⟩)

def resetWorking (next : DriverCode) : DriverCode :=
  .step (setWorkingEntry fun entry => { entry with size := 0 }) fun _ =>
  .step (setWorkingEntry fun entry => { entry with buffptr := nullPtr }) fun _ => next

def completeLine (next : DriverCode) : DriverCode :=
  .step addNewEntry fun retBuf =>
  if retBuf = nullPtr then resetWorking next else .step (kfreeBlock retBuf) fun _ => resetWorking next

def writeSection (api : KernelApi) (writeBuf : Ptr) (count bytesToWrite : UInt64) (newLineFound : Bool)
    (answer : Answer) : DriverCode :=
  .step (kreallocWorking api bytesToWrite answer) fun _ =>
  .step workingBuffptr fun buffptr =>
  if buffptr = nullPtr then .unlock (.step (kfreeBlock writeBuf) fun _ => .ret ⟨-eNoMem, []⟩)
  else
    .step (memcpyToWorking writeBuf bytesToWrite) fun _ =>
    .step (setWorkingEntry fun entry => { entry with size := entry.size + bytesToWrite }) fun _ =>
    if newLineFound then completeLine (writeDone writeBuf count) else writeDone writeBuf count

def aesdWriteCode (api : KernelApi) (buf : Option Bytes) (count : UInt64) (env : WriteEnv) : DriverCode :=
  match buf with
  | none => .ret ⟨-eInval, []⟩
  | some user =>
      .step (kmallocWriteBuf api count env.kmalloc) fun writeBuf =>
      if writeBuf = nullPtr then .ret ⟨-eNoMem, []⟩
      else .step privateData fun opened =>
        if opened = false then .ret ⟨-ePerm, []⟩
        else .step (copyToWriteBuf writeBuf user count env.copyFromUser) fun copied =>
          if copied = false then .step (kfreeBlock writeBuf) fun _ => .ret ⟨-eFault, []⟩
          else .step (readBlock writeBuf 0 count.toNat) fun bytes =>
            .lock env.lock
              (writeSection api writeBuf count (bytesUpToNewLine bytes count)
                (memchr bytes newLine).isSome env.krealloc)
              (.step (kfreeBlock writeBuf) fun _ => .ret ⟨-eRestartSys, []⟩)

def addSizes (next : UInt64 → DriverCode) : List Nat → UInt64 → DriverCode
  | [], size => next size
  | slot :: rest, size => .step (sizeOfEntry slot) fun entrySize => addSizes next rest (size + entrySize)

def aesdLlseekCode (api : KernelApi) (off : Int64) (whence : Int32) (lock : Bool) : DriverCode :=
  .step privateData fun opened =>
  if opened = false then .ret ⟨-ePerm, []⟩
  else .lock lock
    (addSizes (fun bufSize =>
      .step (callFixedSizeLlseek api off whence bufSize.toInt64) fun retval =>
      if retval < 0 then .unlock (.ret ⟨-eInval, []⟩)
      else .step (setFPos retval) fun _ => .unlock (.ret ⟨retval, []⟩)) (List.range 10) 0)
    (.ret ⟨-eRestartSys, []⟩)

def aesdIoctlCode (cmd : UInt32) (seekTo : AesdSeekto) (env : IoctlEnv) : DriverCode :=
  .step privateData fun opened =>
  if opened = false then .ret ⟨-ePerm, []⟩
  else if cmd ≠ aesdcharIocseekto then .ret ⟨-eNoTty, []⟩
  else if env.copyFromUser = false then .ret ⟨-eFault, []⟩
  else .lock env.lock
    (if 10 < seekTo.writeCmd then .unlock (.ret ⟨-eInval, []⟩)
    else .step (sizeOfEntry seekTo.writeCmd.toNat) fun size =>
      if size ≤ seekTo.writeCmdOffset.toUInt64 then .unlock (.ret ⟨-eInval, []⟩)
      else addSizes (fun offset =>
        .unlock (.step (setFPos (offset + seekTo.writeCmdOffset.toUInt64).toInt64) fun _ => .ret ⟨0, []⟩))
          (List.range seekTo.writeCmd.toNat) 0)
    (.ret ⟨-eRestartSys, []⟩)

def callCode (api : KernelApi) : DriverCall → DriverCode
  | .read buf count env => aesdReadCode buf count env
  | .write buf count env => aesdWriteCode api buf count env
  | .llseek off whence lock => aesdLlseekCode api off whence lock
  | .ioctl cmd seekTo env => aesdIoctlCode cmd seekTo env

def sequentialCall (api : KernelApi) (call : DriverCall) (kernel : Kernel) (file : OpenFile) :
    Option (Kernel × OpenFile × CallReply) :=
  (driverCall api kernel file.1 call).map fun result =>
  (result.kernel, file.moveTo result.fPos, ⟨result.ret, result.out⟩)

theorem move_to_same (file : OpenFile) : file.moveTo file.1.fPos = file := rfl

theorem exec_read_code (api : KernelApi) (buf : Ptr) (count : UInt64) (env : ReadEnv) (kernel : Kernel)
    (file : OpenFile) :
    exec (aesdReadCode buf count env) kernel file = sequentialCall api (.read buf count env) kernel file := by
  have opened := file.2
  simp only [aesdReadCode, sequentialCall, driverCall, aesdRead]
  by_cases null : buf = nullPtr
  · simp only [null, if_true, exec, Option.map_some, move_to_same]
  · cases lock : env.lock with
    | false => simp [null, exec, privateData, Statement.record, opened, move_to_same]
    | true =>
        simp only [null, if_false, exec, privateData, Statement.record, Option.map_some, opened,
          Bool.true_eq_false, if_true,
          findEntry]
        cases aesdCircularBufferFindEntryOffsetForFpos kernel.dev.buffer file.1.fPos.toUInt64 with
        | none => rfl
        | some found =>
            cases found with
            | none => rfl
            | some place =>
                obtain ⟨slot, retOffset⟩ := place
                simp only [Option.map_some, exec, retEntryAt, Statement.record, readBlock]
                generalize slotAt kernel.dev.buffer slot = retEntry
                generalize (if count < ((retEntry.size - retOffset).toInt64).toUInt64 then count.toInt64
                  else (retEntry.size - retOffset).toInt64) = bytesToReadOut
                cases heapRead kernel.heap retEntry.buffptr retOffset.toNat bytesToReadOut.toUInt64.toNat with
                | none => rfl
                | some bytes =>
                    by_cases copied : copyToUser env.copyToUser bytes = true <;>
                      simp [copied, exec, advanceFPos, Statement.record, move_to_same]

theorem exec_write_done (writeBuf : Ptr) (count : UInt64) (kernel : Kernel) (file : OpenFile) :
    exec (writeDone writeBuf count) kernel file = (kernel.free writeBuf).map fun freed =>
      (freed, file.moveTo (file.1.fPos + count.toInt64), ⟨count.toInt64, []⟩) := by
  simp only [writeDone, exec, kfreeBlock, Kernel.free, Option.map_map]
  cases kfree kernel.heap writeBuf <;> rfl

theorem exec_complete_line (next : DriverCode) (kernel : Kernel) (file : OpenFile) :
    exec (completeLine next) kernel file = (addWorkingEntry kernel).bind fun added =>
      (freeEvicted added.1 added.2).bind fun freed => exec next (resetWorkingEntry freed) file := by
  simp only [completeLine, exec, addNewEntry, Statement.record, addWorkingEntry, Option.map_map]
  cases aesdCircularBufferAddEntry kernel.dev.buffer kernel.dev.workingEntry with
  | none => rfl
  | some added =>
      by_cases null : added.2 = nullPtr
      · simp [null, freeEvicted, resetWorking, exec, setWorkingEntry, Statement.record, resetWorkingEntry,
          Kernel.setWorking,
          zeroEntry]
      · cases freed : kfree kernel.heap added.2 <;>
          simp [null, freed, freeEvicted, resetWorking, exec, setWorkingEntry, Statement.record, resetWorkingEntry,
            Kernel.setWorking, zeroEntry, kfreeBlock]

theorem exec_write_section (api : KernelApi) (writeBuf : Ptr) (count bytesToWrite : UInt64) (newLineFound : Bool)
    (answer : Answer) (kernel : Kernel) (file : OpenFile) :
    exec (writeSection api writeBuf count bytesToWrite newLineFound answer) kernel file =
      (writeLocked api kernel writeBuf bytesToWrite newLineFound answer).bind fun outcome =>
        (outcome.1.free writeBuf).map fun freed =>
          if outcome.2 then (freed, file.moveTo (file.1.fPos + count.toInt64), ⟨count.toInt64, []⟩)
          else (freed, file, ⟨-eNoMem, []⟩) := by
  simp only [writeSection, exec_step, kreallocWorking, writeLocked, bind]
  cases reallocWorkingEntry api kernel bytesToWrite answer with
  | none => rfl
  | some grown =>
      simp only [Option.map_some, Option.bind_some, workingBuffptr, Statement.record]
      by_cases null : grown.dev.workingEntry.buffptr = nullPtr
      · simp only [null, if_true, exec, kfreeBlock, Kernel.free, pure, Option.bind_some, Option.map_map]
        cases kfree grown.heap writeBuf <;> rfl
      · simp only [null, if_false, exec_step, memcpyToWorking, setWorkingEntry, Statement.record]
        cases appendToWorkingEntry grown writeBuf bytesToWrite with
        | none => rfl
        | some copied =>
            cases newLineFound with
            | false => simp [exec_write_done, growWorkingEntry, Kernel.setWorking]
            | true =>
                have grows : Store.mk copied.heap { copied.dev with
                    workingEntry :=
                      { copied.dev.workingEntry with size := copied.dev.workingEntry.size + bytesToWrite } } =
                  growWorkingEntry copied bytesToWrite := rfl
                simp only [Option.map_some, Option.bind_some, if_true, exec_complete_line, exec_write_done, grows]
                cases addWorkingEntry (growWorkingEntry copied bytesToWrite) with
                | none => rfl
                | some added =>
                    simp only [Option.bind_some]
                    cases freeEvicted added.1 added.2 <;> rfl

theorem kmalloc_null (api : KernelApi) (heap : Heap) (size : UInt64) (answer : Answer)
    (refused : (kmalloc api heap size answer).2 = nullPtr) : (kmalloc api heap size answer).1 = heap := by
  have outcome := kmalloc_cases api heap size answer
  generalize kmalloc api heap size answer = result at outcome refused
  cases outcome with
  | refused => rfl
  | zero => rfl
  | block p fresh _ _ => exact absurd refused (real_not_null p (fresh_address heap p fresh).1)

theorem exec_write_code (api : KernelApi) (buf : Option Bytes) (count : UInt64) (env : WriteEnv) (kernel : Kernel)
    (file : OpenFile) :
    exec (aesdWriteCode api buf count env) kernel file = sequentialCall api (.write buf count env) kernel file := by
  have opened := file.2
  cases buf with
  | none => rfl
  | some user =>
      simp only [aesdWriteCode, sequentialCall, driverCall, aesdWrite, exec_step, kmallocWriteBuf,
        bind, Option.bind_some]
      have unchanged := kmalloc_null api kernel.heap count env.kmalloc
      generalize kmalloc api kernel.heap count env.kmalloc = result at unchanged
      obtain ⟨heap, writeBuf⟩ := result
      by_cases null : writeBuf = nullPtr
      · have same : heap = kernel.heap := unchanged null
        simp [null, exec, move_to_same, same]
      · simp only [null, if_false, exec_step, privateData, Statement.record, opened, Bool.true_eq_false, copyToWriteBuf,
          Option.map_some, Option.bind_some, Option.bind_map]
        cases copyFromUser heap writeBuf user count env.copyFromUser with
        | none => rfl
        | some outcome =>
            obtain ⟨heap, copied⟩ := outcome
            simp only [Option.bind_some, Function.comp]
            cases copied with
            | false =>
                simp only [if_true, exec_step, kfreeBlock, Kernel.free, Option.bind_map, Option.map_bind, pure]
                cases kfree heap writeBuf <;> rfl
            | true =>
                simp only [Bool.true_eq_false, if_false, exec_step, readBlock, Option.bind_map]
                cases heapRead heap writeBuf 0 count.toNat with
                | none => rfl
                | some bytes =>
                    simp only [Option.bind_some, Function.comp, exec]
                    cases lock : env.lock with
                    | false =>
                        simp only [Bool.false_eq_true, if_false, if_true, kfreeBlock, Kernel.free]
                        cases kfree heap writeBuf <;> rfl
                    | true =>
                        simp only [if_true, exec_write_section, Bool.true_eq_false, if_false]
                        cases writeLocked api ⟨heap, kernel.dev⟩ writeBuf (bytesUpToNewLine bytes count)
                            (memchr bytes newLine).isSome env.krealloc with
                        | none => rfl
                        | some outcome =>
                            obtain ⟨after, stored⟩ := outcome
                            cases stored <;> cases freed : after.free writeBuf <;> simp [freed, move_to_same]

theorem exec_add_sizes (next : UInt64 → DriverCode) (slots : List Nat) (size : UInt64) (kernel : Kernel)
    (file : OpenFile) :
    exec (addSizes next slots size) kernel file =
      exec (next (slots.foldl (fun total slot => total + entrySize kernel.dev slot) size)) kernel file := by
  induction slots generalizing size with
  | nil => rfl
  | cons slot rest ih => exact ih (size + entrySize kernel.dev slot)

theorem offset_of_slot_fold (dev : AesdDev) (count : Nat) :
    (List.range count).foldl (fun total slot => total + entrySize dev slot) 0 = offsetOfSlot dev count := by
  induction count with
  | zero => rfl
  | succ count ih => rw [List.range_succ, List.foldl_append, ih]; rfl

theorem buffer_size_offset (dev : AesdDev) : bufferSize dev.buffer = offsetOfSlot dev 10 := by
  have sizes : dev.buffer.entry.toList.map AesdBufferEntry.size = (List.range 10).map (entrySize dev) := by
    refine List.ext_getElem (by simp) fun index left _ => ?_
    have bound : index < 10 := by simpa using left
    simp [entrySize, bound]
  rw [bufferSize, ← offset_of_slot_fold, ← List.foldl_map (f := entrySize dev) (g := fun total size => total + size),
    ← sizes,
    List.foldl_map]

theorem exec_llseek_code (api : KernelApi) (off : Int64) (whence : Int32) (lock : Bool) (kernel : Kernel)
    (file : OpenFile) :
    exec (aesdLlseekCode api off whence lock) kernel file =
      sequentialCall api (.llseek off whence lock) kernel file := by
  have opened := file.2
  simp only [aesdLlseekCode, sequentialCall, driverCall, aesdLlseek, exec_record, privateData, Option.bind_some, opened,
    Bool.true_eq_false, if_false, Option.map_some]
  cases lock with
  | false => rfl
  | true =>
      simp only [exec, if_true, exec_add_sizes, offset_of_slot_fold, exec_record, callFixedSizeLlseek, Option.bind_some,
        Bool.true_eq_false, if_false, ← buffer_size_offset]
      by_cases negative : (api.fixedSizeLlseek file.1.fPos off whence (bufferSize kernel.dev.buffer).toInt64).1 < 0
      · simp only [negative, if_true, exec]
      · simp only [negative, if_false, exec_record, setFPos, Option.bind_some, exec]
        rfl

theorem exec_ioctl_code (api : KernelApi) (cmd : UInt32) (seekTo : AesdSeekto) (env : IoctlEnv) (kernel : Kernel)
    (file : OpenFile) :
    exec (aesdIoctlCode cmd seekTo env) kernel file = sequentialCall api (.ioctl cmd seekTo env) kernel file := by
  have opened := file.2
  simp only [aesdIoctlCode, sequentialCall, driverCall, aesdIoctl, exec_record, privateData, Option.bind_some, opened,
    Bool.true_eq_false, if_false, Option.map_some]
  by_cases other : cmd = aesdcharIocseekto
  · cases copied : env.copyFromUser with
    | false => simp [other, exec, move_to_same]
    | true =>
        cases lock : env.lock with
        | false => simp [other, exec, move_to_same]
        | true =>
            simp only [other, ne_eq, not_true_eq_false, if_false, Bool.true_eq_false, exec, if_true]
            by_cases beyond : 10 < seekTo.writeCmd
            · simp [beyond, exec, move_to_same]
            · simp only [beyond, if_false, false_or, exec_record, sizeOfEntry, Option.bind_some]
              by_cases outside : entrySize kernel.dev seekTo.writeCmd.toNat ≤ seekTo.writeCmdOffset.toUInt64
              · simp [outside, exec, move_to_same]
              · simp [outside, exec, exec_add_sizes, offset_of_slot_fold, setFPos, Statement.record]
  · simp [other, exec, move_to_same]

theorem exec_call_code (api : KernelApi) (call : DriverCall) : exec (callCode api call) = sequentialCall api call := by
  funext kernel file
  cases call with
  | read buf count env => exact exec_read_code api buf count env kernel file
  | write buf count env => exact exec_write_code api buf count env kernel file
  | llseek off whence lock => exact exec_llseek_code api off whence lock kernel file
  | ioctl cmd seekTo env => exact exec_ioctl_code api cmd seekTo env kernel file

end AesdChar
