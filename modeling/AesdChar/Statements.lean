import AesdChar.Device
import AesdChar.MemoryFrame
import AesdChar.Library.LockProgram

set_option autoImplicit false

namespace AesdChar

open HeapStore LockProgram

-- A file that aesd_open has given its private_data.
abbrev OpenFile := { filp : Filp // filp.privateData = true }

def OpenFile.moveTo (file : OpenFile) (fPos : Int64) : OpenFile := ⟨{ file.1 with fPos }, file.2⟩

structure CallReply where
  ret : Int64
  out : Bytes
deriving DecidableEq

abbrev DriverStatement (τ : Type) := Statement Ptr Bytes AesdDev OpenFile τ

abbrev DriverCode := Code Ptr Bytes AesdDev OpenFile CallReply

def privateData : DriverStatement Bool := .record fun dev file => some (dev, file, file.1.privateData)

def setFPos (fPos : Int64) : DriverStatement Unit := .record fun dev file => some (dev, file.moveTo fPos, ())

def advanceFPos (count : Int64) : DriverStatement Unit :=
  .record fun dev file => some (dev, file.moveTo (file.1.fPos + count), ())

def findEntry : DriverStatement (Option (Nat × UInt64)) :=
  .record fun dev file =>
    (aesdCircularBufferFindEntryOffsetForFpos dev.buffer file.1.fPos.toUInt64).map fun found => (dev, file, found)

def retEntryAt (slot : Nat) : DriverStatement AesdBufferEntry :=
  .record fun dev file => some (dev, file, slotAt dev.buffer slot)

def sizeOfEntry (index : Nat) : DriverStatement UInt64 := .record fun dev file => some (dev, file, entrySize dev index)

def callFixedSizeLlseek (api : KernelApi) (off : Int64) (whence : Int32) (size : Int64) : DriverStatement Int64 :=
  .record fun dev file =>
    let (retval, fPos) := api.fixedSizeLlseek file.1.fPos off whence size
    some (dev, file.moveTo fPos, retval)

def workingBuffptr : DriverStatement Ptr := .record fun dev file => some (dev, file, dev.workingEntry.buffptr)

def setWorkingEntry (change : AesdBufferEntry → AesdBufferEntry) : DriverStatement Unit :=
  .record fun dev file => some ({ dev with workingEntry := change dev.workingEntry }, file, ())

def addNewEntry : DriverStatement Ptr :=
  .record fun dev file =>
    (aesdCircularBufferAddEntry dev.buffer dev.workingEntry).map fun added =>
      ({ dev with buffer := added.1 }, file, added.2)

def kmallocWriteBuf (api : KernelApi) (count : UInt64) (answer : Answer) : DriverStatement Ptr where
  allowed := fun kernel => grantable api kernel.heap count answer
  run := fun kernel file =>
    some (⟨(kmalloc api kernel.heap count answer).1, kernel.dev⟩, file, (kmalloc api kernel.heap count answer).2)
  framed := by
    intro kernel extra file next moved p apart grants ran
    simp only [Option.some.injEq, Prod.mk.injEq] at ran
    obtain ⟨rfl, rfl, rfl⟩ := ran
    obtain ⟨kept, same⟩ := kmalloc_framed api kernel.heap extra count answer apart grants
    exact ⟨kept, by simp only [Store.extend, same]⟩

def kfreeBlock (p : Ptr) : DriverStatement Unit where
  allowed := fun _ => true
  run := fun kernel file => (kfree kernel.heap p).map fun heap => (⟨heap, kernel.dev⟩, file, ())
  framed := by
    intro kernel extra file next moved value apart _ ran
    obtain ⟨heap, freed, same⟩ := Option.map_eq_some_iff.mp ran
    simp only [Prod.mk.injEq] at same
    obtain ⟨rfl, rfl, _⟩ := same
    obtain ⟨kept, again⟩ := kfree_framed kernel.heap extra heap p apart freed
    exact ⟨kept, by simp only [Store.extend, again, Option.map_some]⟩

def readBlock (p : Ptr) (offset count : Nat) : DriverStatement Bytes where
  allowed := fun _ => true
  run := fun kernel file => (heapRead kernel.heap p offset count).map fun bytes => (kernel, file, bytes)
  framed := by
    intro kernel extra file next moved value apart _ ran
    obtain ⟨bytes, found, same⟩ := Option.map_eq_some_iff.mp ran
    simp only [Prod.mk.injEq] at same
    obtain ⟨rfl, rfl, rfl⟩ := same
    have again := heap_read_framed kernel.heap extra p offset count bytes found
    exact ⟨apart, by simp only [Store.extend, again, Option.map_some]⟩

theorem copy_from_user_framed (heap extra next : Heap) (target : Ptr) (user : Bytes) (count : UInt64) (ok copied : Bool)
    (apart : Apart heap extra) (ran : copyFromUser heap target user count ok = some (next, copied)) :
    Apart next extra ∧ copyFromUser (union heap extra) target user count ok = some (union next extra, copied) := by
  unfold copyFromUser at ran ⊢
  by_cases nothing : count = 0
  · simp only [nothing, if_true, Option.some.injEq, Prod.mk.injEq] at ran ⊢
    obtain ⟨rfl, rfl⟩ := ran
    exact ⟨apart, rfl, rfl⟩
  · by_cases readable : ok = true ∧ count.toNat ≤ user.length
    · rw [if_neg nothing, if_pos readable] at ran ⊢
      obtain ⟨written, wrote, same⟩ := Option.map_eq_some_iff.mp ran
      cases same
      obtain ⟨kept, again⟩ := heap_write_framed heap extra next target 0 _ apart wrote
      exact ⟨kept, by rw [again, Option.map_some]⟩
    · simp only [nothing, readable, if_false, Option.some.injEq, Prod.mk.injEq] at ran ⊢
      obtain ⟨rfl, rfl⟩ := ran
      exact ⟨apart, rfl, rfl⟩

def copyToWriteBuf (writeBuf : Ptr) (user : Bytes) (count : UInt64) (ok : Bool) : DriverStatement Bool where
  allowed := fun _ => true
  run := fun kernel file =>
    (copyFromUser kernel.heap writeBuf user count ok).map fun result => (⟨result.1, kernel.dev⟩, file, result.2)
  framed := by
    intro kernel extra file next moved value apart _ ran
    obtain ⟨⟨heap, copied⟩, found, same⟩ := Option.map_eq_some_iff.mp ran
    simp only [Prod.mk.injEq] at same
    obtain ⟨rfl, rfl, rfl⟩ := same
    obtain ⟨kept, again⟩ := copy_from_user_framed kernel.heap extra heap writeBuf user count ok copied apart found
    exact ⟨kept, by simp only [Store.extend, again, Option.map_some]⟩

def kreallocWorking (api : KernelApi) (bytesToWrite : UInt64) (answer : Answer) : DriverStatement Unit where
  allowed := fun kernel => regrantable kernel.heap kernel.dev.workingEntry.buffptr answer
  run := fun kernel file => (reallocWorkingEntry api kernel bytesToWrite answer).map fun next => (next, file, ())
  framed := by
    intro kernel extra file next moved value apart grants ran
    obtain ⟨after, grown, same⟩ := Option.map_eq_some_iff.mp ran
    simp only [Prod.mk.injEq] at same
    obtain ⟨rfl, rfl, _⟩ := same
    simp only [reallocWorkingEntry] at grown ⊢
    cases resized :
      krealloc api kernel.heap kernel.dev.workingEntry.buffptr (kernel.dev.workingEntry.size + bytesToWrite)
        answer with
    | none => simp [resized] at grown
    | some result =>
        obtain ⟨heap, q⟩ := result
        simp only [resized, Option.some.injEq] at grown
        subst grown
        obtain ⟨kept, again⟩ :=
          krealloc_framed api kernel.heap extra heap kernel.dev.workingEntry.buffptr q _ answer apart grants resized
        exact ⟨kept, by simp only [Store.extend, again, Option.map_some, Kernel.setWorking]⟩

def memcpyToWorking (writeBuf : Ptr) (bytesToWrite : UInt64) : DriverStatement Unit where
  allowed := fun _ => true
  run := fun kernel file => (appendToWorkingEntry kernel writeBuf bytesToWrite).map fun next => (next, file, ())
  framed := by
    intro kernel extra file next moved value apart _ ran
    obtain ⟨after, copied, same⟩ := Option.map_eq_some_iff.mp ran
    simp only [Prod.mk.injEq] at same
    obtain ⟨rfl, rfl, _⟩ := same
    simp only [appendToWorkingEntry] at copied ⊢
    cases found : heapRead kernel.heap writeBuf 0 bytesToWrite.toNat with
    | none => simp [found] at copied
    | some bytes =>
        simp only [found] at copied
        obtain ⟨heap, wrote, rfl⟩ := Option.map_eq_some_iff.mp copied
        have foundAgain := heap_read_framed kernel.heap extra writeBuf 0 _ bytes found
        obtain ⟨kept, wroteAgain⟩ := heap_write_framed kernel.heap extra heap _ _ bytes apart wrote
        exact ⟨kept, by simp only [Store.extend, foundAgain, wroteAgain, Option.map_some]⟩

end AesdChar
