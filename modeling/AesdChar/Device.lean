import AesdChar.CircularBuffer
import AesdChar.Library.HeapStore
import Mathlib.Data.List.Basic

set_option autoImplicit false

namespace AesdChar

open HeapStore

-- buf_mutex belongs to the interleaved model: a call of this module runs from
-- its lock to its unlock with nothing in between. cdev is never looked at.
structure AesdDev where
  buffer : AesdCircularBuffer
  workingEntry : AesdBufferEntry
deriving DecidableEq, Repr

abbrev Kernel := Store Ptr Bytes AesdDev

structure Filp where
  privateData : Bool
  fPos : Int64
deriving DecidableEq, Repr

structure CallResult where
  kernel : Kernel
  fPos : Int64
  ret : Int64
  out : Bytes

def ePerm : Int64 := 1
def eFault : Int64 := 14
def eNoMem : Int64 := 12
def eInval : Int64 := 22
def eNoTty : Int64 := 25
def eRestartSys : Int64 := 512

def newLine : UInt8 := 10

def aesdOpen (filp : Filp) : Filp := { filp with privateData := true }

-- lock is false when a signal interrupts mutex_lock_interruptible.
structure ReadEnv where
  lock : Bool
  copyToUser : Bool

def copyToUser (ok : Bool) (bytes : Bytes) : Bool := ok || bytes.isEmpty

-- none: the lookup or the copy leaves the memory it may touch.
def aesdRead (kernel : Kernel) (filp : Filp) (buf : Ptr) (count : UInt64) (fPos : Int64) (env : ReadEnv) :
    Option CallResult :=
  if buf = nullPtr then some ⟨kernel, fPos, -eInval, []⟩
  else if filp.privateData = false then some ⟨kernel, fPos, -ePerm, []⟩
  else if env.lock = false then some ⟨kernel, fPos, -eRestartSys, []⟩
  else match aesdCircularBufferFindEntryOffsetForFpos kernel.dev.buffer fPos.toUInt64 with
    | none => none
    | some none => some ⟨kernel, fPos, 0, []⟩
    | some (some (slot, retOffset)) =>
        let retEntry := slotAt kernel.dev.buffer slot
        let bytesLeftInEntry : Int64 := (retEntry.size - retOffset).toInt64
        -- The comparison with the unsigned count is unsigned.
        let bytesToReadOut := if count < bytesLeftInEntry.toUInt64 then count.toInt64 else bytesLeftInEntry
        match heapRead kernel.heap retEntry.buffptr retOffset.toNat bytesToReadOut.toUInt64.toNat with
        | none => none
        | some bytes =>
            if copyToUser env.copyToUser bytes then
              some ⟨kernel, fPos + bytesToReadOut, bytesToReadOut, bytes⟩
            else some ⟨kernel, fPos, -eFault, []⟩

structure WriteEnv where
  kmalloc : Answer
  copyFromUser : Bool
  lock : Bool
  krealloc : Answer

-- The target of a failed copy is freed at once.
def copyFromUser (heap : Heap) (target : Ptr) (user : Bytes) (count : UInt64) (ok : Bool) : Option (Heap × Bool) :=
  if count = 0 then some (heap, true)
  else if ok = true ∧ count.toNat ≤ user.length then
    (heapWrite heap target 0 (user.take count.toNat)).map fun next => (next, true)
  else some (heap, false)

def memchr (bytes : Bytes) (c : UInt8) : Option Nat := bytes.idxOf? c

def Kernel.setWorking (kernel : Kernel) (entry : AesdBufferEntry) : Kernel :=
  ⟨kernel.heap, { kernel.dev with workingEntry := entry }⟩

def reallocWorkingEntry (api : KernelApi) (kernel : Kernel) (bytesToWrite : UInt64) (answer : Answer) :
    Option Kernel :=
  let working := kernel.dev.workingEntry
  match krealloc api kernel.heap working.buffptr (working.size + bytesToWrite) answer with
  | none => none
  | some (heap, buffptr) => some (Kernel.setWorking ⟨heap, kernel.dev⟩ { working with buffptr })

def appendToWorkingEntry (kernel : Kernel) (writeBuf : Ptr) (bytesToWrite : UInt64) : Option Kernel :=
  let working := kernel.dev.workingEntry
  match heapRead kernel.heap writeBuf 0 bytesToWrite.toNat with
  | none => none
  | some bytes => (heapWrite kernel.heap working.buffptr working.size.toNat bytes).map fun heap => ⟨heap, kernel.dev⟩

def growWorkingEntry (kernel : Kernel) (bytesToWrite : UInt64) : Kernel :=
  kernel.setWorking { kernel.dev.workingEntry with size := kernel.dev.workingEntry.size + bytesToWrite }

def addWorkingEntry (kernel : Kernel) : Option (Kernel × Ptr) :=
  (aesdCircularBufferAddEntry kernel.dev.buffer kernel.dev.workingEntry).map fun added =>
    (⟨kernel.heap, { kernel.dev with buffer := added.1 }⟩, added.2)

def freeEvicted (kernel : Kernel) (retBuf : Ptr) : Option Kernel :=
  if retBuf = nullPtr then some kernel
  else (kfree kernel.heap retBuf).map fun heap => ⟨heap, kernel.dev⟩

def resetWorkingEntry (kernel : Kernel) : Kernel := kernel.setWorking zeroEntry

-- The section between lock and unlock. false: krealloc returned NULL, and
-- working_entry.buffptr has lost the block it pointed to.
def writeLocked (api : KernelApi) (kernel : Kernel) (writeBuf : Ptr) (bytesToWrite : UInt64) (newLineFound : Bool)
    (answer : Answer) : Option (Kernel × Bool) := do
  let kernel ← reallocWorkingEntry api kernel bytesToWrite answer
  if kernel.dev.workingEntry.buffptr = nullPtr then return (kernel, false)
  let kernel ← appendToWorkingEntry kernel writeBuf bytesToWrite
  let kernel := growWorkingEntry kernel bytesToWrite
  if newLineFound then
    let (kernel, retBuf) ← addWorkingEntry kernel
    let kernel ← freeEvicted kernel retBuf
    return (resetWorkingEntry kernel, true)
  return (kernel, true)

def bytesUpToNewLine (bytes : Bytes) (count : UInt64) : UInt64 :=
  match memchr bytes newLine with
  | some index => 1 + UInt64.ofNat index
  | none => count

def Kernel.free (kernel : Kernel) (p : Ptr) : Option Kernel :=
  (kfree kernel.heap p).map fun heap => ⟨heap, kernel.dev⟩

-- none: an access outside the memory the driver holds.
def aesdWrite (api : KernelApi) (kernel : Kernel) (filp : Filp) (buf : Option Bytes) (count : UInt64) (fPos : Int64)
    (env : WriteEnv) : Option CallResult :=
  match buf with
  | none => some ⟨kernel, fPos, -eInval, []⟩
  | some user => do
      let (heap, writeBuf) := kmalloc api kernel.heap count env.kmalloc
      if writeBuf = nullPtr then return ⟨kernel, fPos, -eNoMem, []⟩
      let kernel : Kernel := ⟨heap, kernel.dev⟩
      if filp.privateData = false then return ⟨kernel, fPos, -ePerm, []⟩
      let (heap, copied) ← copyFromUser kernel.heap writeBuf user count env.copyFromUser
      let kernel : Kernel := ⟨heap, kernel.dev⟩
      if copied = false then
        let kernel ← kernel.free writeBuf
        return ⟨kernel, fPos, -eFault, []⟩
      let bytes ← heapRead kernel.heap writeBuf 0 count.toNat
      let bytesToWrite := bytesUpToNewLine bytes count
      if env.lock = false then
        let kernel ← kernel.free writeBuf
        return ⟨kernel, fPos, -eRestartSys, []⟩
      let (kernel, stored) ← writeLocked api kernel writeBuf bytesToWrite (memchr bytes newLine).isSome env.krealloc
      let kernel ← kernel.free writeBuf
      if stored = false then return ⟨kernel, fPos, -eNoMem, []⟩
      return ⟨kernel, fPos + count.toInt64, count.toInt64, []⟩

-- AESD_CIRCULAR_BUFFER_FOREACH visits all ten slots, used or not.
def bufferSize (buffer : AesdCircularBuffer) : UInt64 :=
  buffer.entry.toList.foldl (fun size entry => size + entry.size) 0

def aesdLlseek (api : KernelApi) (kernel : Kernel) (filp : Filp) (off : Int64) (whence : Int32) (lock : Bool) :
    CallResult :=
  if filp.privateData = false then ⟨kernel, filp.fPos, -ePerm, []⟩
  else if lock = false then ⟨kernel, filp.fPos, -eRestartSys, []⟩
  else
    let (retval, fPos) := api.fixedSizeLlseek filp.fPos off whence (bufferSize kernel.dev.buffer).toInt64
    if retval < 0 then ⟨kernel, fPos, -eInval, []⟩
    else ⟨kernel, retval, retval, []⟩

structure AesdSeekto where
  writeCmd : UInt32
  writeCmdOffset : UInt32
deriving DecidableEq, Repr

def aesdcharIocseekto : UInt32 := 0xC0081601

-- buffer.entry[index].size. entry[10] would begin where in_offs, out_offs and
-- full lie, so its size is the word after them: working_entry.buffptr.
def entrySize (dev : AesdDev) (index : Nat) : UInt64 :=
  if bound : index < 10 then dev.buffer.entry[index].size else dev.workingEntry.buffptr

def offsetOfSlot (dev : AesdDev) : Nat → UInt64
  | 0 => 0
  | count + 1 => offsetOfSlot dev count + entrySize dev count

structure IoctlEnv where
  copyFromUser : Bool
  lock : Bool

def aesdIoctl (kernel : Kernel) (filp : Filp) (cmd : UInt32) (seekTo : AesdSeekto) (env : IoctlEnv) : CallResult :=
  if filp.privateData = false then ⟨kernel, filp.fPos, -ePerm, []⟩
  else if cmd ≠ aesdcharIocseekto then ⟨kernel, filp.fPos, -eNoTty, []⟩
  else if env.copyFromUser = false then ⟨kernel, filp.fPos, -eFault, []⟩
  else if env.lock = false then ⟨kernel, filp.fPos, -eRestartSys, []⟩
  else if 10 < seekTo.writeCmd ∨ entrySize kernel.dev seekTo.writeCmd.toNat ≤ seekTo.writeCmdOffset.toUInt64 then
    ⟨kernel, filp.fPos, -eInval, []⟩
  else
    ⟨kernel, (offsetOfSlot kernel.dev seekTo.writeCmd.toNat + seekTo.writeCmdOffset.toUInt64).toInt64, 0, []⟩

def aesdInitModule (dev : AesdDev) (allocChrdevRegion aesdSetupCdev : Int64) : AesdDev × Int64 :=
  if allocChrdevRegion < 0 then (dev, allocChrdevRegion)
  else (⟨aesdCircularBufferInit, zeroEntry⟩, aesdSetupCdev)

inductive DriverCall where
  | read (buf : Ptr) (count : UInt64) (env : ReadEnv)
  | write (buf : Option Bytes) (count : UInt64) (env : WriteEnv)
  | llseek (off : Int64) (whence : Int32) (lock : Bool)
  | ioctl (cmd : UInt32) (seekTo : AesdSeekto) (env : IoctlEnv)

def driverCall (api : KernelApi) (kernel : Kernel) (filp : Filp) : DriverCall → Option CallResult
  | .read buf count env => aesdRead kernel filp buf count filp.fPos env
  | .write buf count env => aesdWrite api kernel filp buf count filp.fPos env
  | .llseek off whence lock => some (aesdLlseek api kernel filp off whence lock)
  | .ioctl cmd seekTo env => some (aesdIoctl kernel filp cmd seekTo env)

end AesdChar
