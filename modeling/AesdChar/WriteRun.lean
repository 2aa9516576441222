import AesdChar.WriteSpec
import AesdChar.Words

set_option autoImplicit false

namespace AesdChar

open CyclicQueue Framing HeapStore

def entryBytes (heap : Heap) (entry : AesdBufferEntry) : Option Bytes := heapRead heap entry.buffptr 0 entry.size.toNat

-- The bytes of the retained commands, oldest first, and of the working entry.
-- none: an entry does not own the bytes it claims.
def retained (kernel : Kernel) : Option (List Bytes) :=
  (logicalContent kernel.dev.buffer).mapM (entryBytes kernel.heap)

def workingBytes (kernel : Kernel) : Option Bytes := entryBytes kernel.heap kernel.dev.workingEntry

theorem block_rep_bytes (api : KernelApi) (heap : Heap) (entry : AesdBufferEntry) (line : Bytes)
    (block : BlockRep api heap entry line) : entryBytes heap entry = some line := by
  rw [entryBytes, heap_read_live heap _ line 0 _ block.real block.live (by have size := block.size; omega), block.size]
  simp

theorem stored_bytes (api : KernelApi) (heap : Heap) (content : List AesdBufferEntry) (lines : List Bytes)
    (stored : List.Forall₂ (BlockRep api heap) content lines) : content.mapM (entryBytes heap) = some lines := by
  induction stored with
  | nil => rfl
  | cons block _ ih => simp [List.mapM_cons, block_rep_bytes api heap _ _ block, ih]

theorem dev_rep_retained (api : KernelApi) (kernel : Kernel) (content : List AesdBufferEntry) (lines : List Bytes)
    (working : Option Bytes) (rep : DevRep api kernel content lines working) : retained kernel = some lines := by
  rw [retained, ring_rep_content _ content rep.ring, stored_bytes api kernel.heap content lines rep.stored]

theorem dev_rep_working (api : KernelApi) (kernel : Kernel) (content : List AesdBufferEntry) (lines : List Bytes)
    (working : Option Bytes) (rep : DevRep api kernel content lines working) : workingBytes kernel = working := by
  have pending := rep.pending
  rw [workingBytes]
  generalize kernel.dev.workingEntry = entry at pending
  cases pending with
  | empty reserved zero => simp [entryBytes, zero, heapRead]
  | pending line block => exact block_rep_bytes api kernel.heap entry line block
  | lost gone claimed fits =>
      have positive : entry.size.toNat ≠ 0 := fun zero => claimed (UInt64.toNat_inj.mp zero)
      simp [entryBytes, heapRead, gone, null_reserved, positive]

structure WriteCall where
  filp : Filp
  buf : Option Bytes
  count : UInt64
  env : WriteEnv

def writeCall (api : KernelApi) (kernel : Kernel) (call : WriteCall) : Option CallResult :=
  aesdWrite api kernel call.filp call.buf call.count call.filp.fPos call.env

def contribution (call : WriteCall) (ret : Int64) : Bytes :=
  if ret < 0 then [] else accepted (call.buf.getD []) call.count

-- A call contributes by what the kernel grants it, whatever it returns.
def callGranted (api : KernelApi) (kernel : Kernel) (call : WriteCall) : Bool :=
  writeGranted api kernel call.filp call.buf call.count call.env

def contributed (api : KernelApi) (kernel : Kernel) (call : WriteCall) : Bytes :=
  if callGranted api kernel call then accepted (call.buf.getD []) call.count else []

def writeRun (api : KernelApi) : Kernel → List WriteCall → Option (Kernel × Bytes)
  | kernel, [] => some (kernel, [])
  | kernel, call :: rest =>
      match writeCall api kernel call with
      | none => none
      | some result =>
          match writeRun api result.kernel rest with
          | none => none
          | some (final, later) => some (final, contributed api kernel call ++ later)

def callRefused (api : KernelApi) (kernel : Kernel) (call : WriteCall) : Bool :=
  kreallocRefused api kernel call.filp call.buf call.count call.env

def kreallocHolds (api : KernelApi) : Kernel → List WriteCall → Bool
  | _, [] => true
  | kernel, call :: rest =>
      !callRefused api kernel call && match writeCall api kernel call with
        | none => true
        | some result => kreallocHolds api result.kernel rest

def Answered (api : KernelApi) : Kernel → List WriteCall → Prop
  | _, [] => True
  | kernel, call :: rest =>
      ∃ result, writeCall api kernel call = some result ∧
        (if callGranted api kernel call then result.ret = call.count.toInt64 ∧ 0 ≤ result.ret else result.ret < 0) ∧
        Answered api result.kernel rest

def StreamRep (api : KernelApi) (kernel : Kernel) (stream : Bytes) : Prop :=
  ∃ content, DevRep api kernel content ((frame newLine stream).lines.rtake 10) (some (frame newLine stream).tail)

theorem count_not_negative (api : KernelApi) (count : UInt64) (fits : count.toNat ≤ api.kmallocMaxSize) :
    ¬ count.toInt64 < 0 := by
  have addressable := api.addressable
  exact word_not_negative count (by omega)

theorem call_granted_fits (api : KernelApi) (kernel : Kernel) (call : WriteCall)
    (granted : callGranted api kernel call = true) : call.count.toNat ≤ api.kmallocMaxSize := by
  rcases kmalloc_call api kernel call.count call.env.kmalloc with refused | ⟨_, _, _, _, fits, _⟩
  · cases given : call.buf <;> simp [callGranted, writeGranted, given, refused] at granted
  · exact fits

theorem write_step_answered (api : KernelApi) (kernel : Kernel) (stream : Bytes) (call : WriteCall)
    (rep : StreamRep api kernel stream) (holds : callRefused api kernel call = false) :
    ∃ result, writeCall api kernel call = some result ∧
      (if callGranted api kernel call then result.ret = call.count.toInt64 ∧ 0 ≤ result.ret else result.ret < 0) ∧
      contributed api kernel call = contribution call result.ret := by
  obtain ⟨content, rep⟩ := rep
  obtain ⟨result, run, _, denied, counted⟩ := aesd_write_outcome api kernel content _ _ call.filp call.buf call.count
    call.filp.fPos call.env rep
  refine ⟨result, run, ?_⟩
  by_cases granted : callGranted api kernel call = true
  · have ret := (counted granted holds).1
    have positive := count_not_negative api call.count (call_granted_fits api kernel call granted)
    simp only [granted, if_true, contributed, contribution, ret, if_neg positive, and_true, true_and]
    exact Int64.not_lt.mp positive
  · have negative := denied (by simpa [callGranted] using granted)
    simp [granted, contributed, contribution, negative]

theorem write_step_stream (api : KernelApi) (kernel : Kernel) (stream : Bytes) (call : WriteCall)
    (rep : StreamRep api kernel stream) (holds : callRefused api kernel call = false) :
    ∃ result, writeCall api kernel call = some result ∧
      StreamRep api result.kernel (stream ++ contribution call result.ret) := by
  obtain ⟨content, rep⟩ := rep
  obtain ⟨result, run, effect⟩ := aesd_write_effect api kernel content _ _ call.filp call.buf call.count call.filp.fPos
    call.env rep
  refine ⟨result, run, ?_⟩
  rw [callRefused] at holds
  rw [holds] at effect
  cases effect with
  | rejected ret negative => exact ⟨content, by simpa [contribution, negative] using rep⟩
  | leaked heap _ kept =>
      have negative : -ePerm < 0 := by decide
      exact ⟨content, by simpa [contribution, negative] using kept⟩
  | kept user next nextContent given mapped fits absent next_rep =>
      have added : contribution call call.count.toInt64 = accepted user call.count := by
        simp [contribution, count_not_negative api call.count fits, given]
      have whole : newLine ∉ accepted user call.count := by rwa [accepted_open user call.count absent]
      refine ⟨nextContent, ?_⟩
      rw [added, frame_append_open newLine stream _ whole]
      simpa [baseBytes] using next_rep
  | completed user next nextContent given mapped fits present next_rep =>
      have added : contribution call call.count.toInt64 = accepted user call.count := by
        simp [contribution, count_not_negative api call.count fits, given]
      refine ⟨nextContent, ?_⟩
      rw [added, frame_append_line newLine stream _ (accepted_line user call.count present)]
      simpa [baseBytes, push_rtake] using next_rep

theorem write_run_stream (api : KernelApi) (kernel : Kernel) (stream : Bytes) (calls : List WriteCall)
    (rep : StreamRep api kernel stream) (holds : kreallocHolds api kernel calls = true) :
    ∃ final added, writeRun api kernel calls = some (final, added) ∧ Answered api kernel calls ∧
      StreamRep api final (stream ++ added) := by
  induction calls generalizing kernel stream with
  | nil => exact ⟨kernel, [], rfl, trivial, by simpa using rep⟩
  | cons call rest ih =>
      simp only [kreallocHolds, Bool.and_eq_true, Bool.not_eq_true'] at holds
      obtain ⟨result, run, next⟩ := write_step_stream api kernel stream call rep holds.1
      have later := holds.2
      simp only [run] at later
      obtain ⟨final, added, ran, answered, finalRep⟩ := ih result.kernel _ next later
      obtain ⟨_, again, answer, same⟩ := write_step_answered api kernel stream call rep holds.1
      obtain rfl := Option.some.inj (run.symm.trans again)
      refine ⟨final, contributed api kernel call ++ added, by simp [writeRun, run, ran],
        ⟨result, run, answer, answered⟩, ?_⟩
      simpa [same] using finalRep

theorem stream_rep_loaded (api : KernelApi) : StreamRep api loadedModule [] := ⟨[], dev_rep_loaded api⟩

theorem write_runs_frame_lines (api : KernelApi) (calls : List WriteCall)
    (holds : kreallocHolds api loadedModule calls = true) :
    ∃ kernel stream, writeRun api loadedModule calls = some (kernel, stream) ∧
      Answered api loadedModule calls ∧
      IsFraming newLine stream (frame newLine stream) ∧
      retained kernel = some ((frame newLine stream).lines.rtake 10) ∧
      workingBytes kernel = some (frame newLine stream).tail ∧
      kernel.dev.workingEntry.size.toNat = (frame newLine stream).tail.length ∧
      (∀ line ∈ (frame newLine stream).lines.rtake 10, line ≠ [] ∧ IsLine newLine line) ∧
      newLine ∉ (frame newLine stream).tail := by
  obtain ⟨kernel, stream, run, answered, content, rep⟩ :=
    write_run_stream api loadedModule [] calls (stream_rep_loaded api) holds
  rw [List.nil_append] at rep
  have framing := frame_framing newLine stream
  refine ⟨kernel, stream, run, answered, framing, dev_rep_retained api kernel content _ _ rep,
    dev_rep_working api kernel content _ _ rep, ?_, ?_, framing.tail⟩
  · have length := base_length api kernel _ ⟨none, fun _ => 0⟩ rep.pending
    simpa [baseBytes] using length.symm
  · intro line member
    obtain ⟨body, isLine, absent⟩ := framing.lines line (List.drop_subset _ _ member)
    exact ⟨by simp [isLine], body, isLine, absent⟩

def sampleWrite (text : Bytes) (writeBuf block : Ptr) : WriteCall :=
  ⟨⟨true, 0⟩, some text, UInt64.ofNat text.length, ⟨⟨some writeBuf, fun _ => 0⟩, true, true, ⟨some block, fun _ => 0⟩⟩⟩

def failedCopy : WriteCall :=
    { sampleWrite [99, 10] 4096 16384 with env := ⟨⟨some 4096, fun _ => 0⟩, false, true, ⟨none, fun _ => 0⟩⟩ }

theorem write_runs_frame_two_writes :
    ∃ kernel,
      writeRun stockKernel loadedModule [sampleWrite [97, 10] 4096 8192, failedCopy, sampleWrite [98] 4096 12288] =
        some (kernel, [97, 10, 98]) ∧
      Answered stockKernel loadedModule [sampleWrite [97, 10] 4096 8192, failedCopy, sampleWrite [98] 4096 12288] ∧
      retained kernel = some [[97, 10]] ∧ workingBytes kernel = some [98] ∧ kernel.dev.workingEntry.size = 1 := by
  obtain ⟨kernel, stream, run, answered, _, lines, tail, size, _⟩ := write_runs_frame_lines stockKernel
    [sampleWrite [97, 10] 4096 8192, failedCopy, sampleWrite [98] 4096 12288] (by decide)
  have streamed : stream = [97, 10, 98] := by
    have value : (writeRun stockKernel loadedModule
        [sampleWrite [97, 10] 4096 8192, failedCopy, sampleWrite [98] 4096 12288]).map Prod.snd =
        some [97, 10, 98] := by decide
    simpa [run] using value
  subst streamed
  exact ⟨kernel, run, answered, lines, tail, UInt64.toNat_inj.mp size⟩

end AesdChar
