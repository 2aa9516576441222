import AesdChar.DriverRun

set_option autoImplicit false

namespace AesdChar

open CyclicQueue HeapStore

-- Two kernels that differ at most in which pointer an empty working entry
-- holds, NULL or the one krealloc gives for size 0.
structure Alike (kernel other : Kernel) : Prop where
  heap : kernel.heap = other.heap
  buffer : kernel.dev.buffer = other.dev.buffer
  working : kernel.dev.workingEntry = other.dev.workingEntry ∨
    ∃ p q, zeroOrNullPtr p = true ∧ zeroOrNullPtr q = true ∧ kernel.dev.workingEntry = ⟨p, 0⟩ ∧
      other.dev.workingEntry = ⟨q, 0⟩

structure AlikeResult (result other : CallResult) : Prop where
  kernel : Alike result.kernel other.kernel
  fPos : result.fPos = other.fPos
  ret : result.ret = other.ret
  out : result.out = other.out

theorem alike_refl (kernel : Kernel) : Alike kernel kernel := ⟨rfl, rfl, Or.inl rfl⟩

theorem alike_result_refl (result : CallResult) : AlikeResult result result := ⟨alike_refl _, rfl, rfl, rfl⟩

theorem alike_on_heap (kernel other : Kernel) (heap : Heap) (alike : Alike kernel other) :
    Alike ⟨heap, kernel.dev⟩ ⟨heap, other.dev⟩ := ⟨rfl, alike.buffer, alike.working⟩

theorem alike_realloc (api : KernelApi) (kernel other : Kernel) (count : UInt64) (answer : Answer)
    (alike : Alike kernel other) :
    reallocWorkingEntry api kernel count answer = reallocWorkingEntry api other count answer := by
  obtain ⟨heap, buffer, working⟩ := kernel
  obtain ⟨otherHeap, otherBuffer, otherWorking⟩ := other
  obtain ⟨sameHeap, sameBuffer, same⟩ := alike
  cases sameHeap
  cases sameBuffer
  rcases same with same | ⟨p, q, reserved, otherReserved, same, otherSame⟩
  · cases same
    rfl
  · cases same
    cases otherSame
    simp only [reallocWorkingEntry, krealloc_reserved api _ _ _ _ reserved, krealloc_reserved api _ _ _ _ otherReserved,
      Kernel.setWorking]

theorem alike_locked (api : KernelApi) (kernel other : Kernel) (writeBuf : Ptr) (count : UInt64) (newLineFound : Bool)
    (answer : Answer) (alike : Alike kernel other) :
    writeLocked api kernel writeBuf count newLineFound answer = writeLocked api other writeBuf count
      newLineFound answer := by
  rw [writeLocked, writeLocked, alike_realloc api kernel other count answer alike]

theorem read_elsewhere (heap : Heap) (dev other : AesdDev) (filp : Filp) (buf : Ptr) (count : UInt64) (fPos : Int64)
    (env : ReadEnv) (same : other.buffer = dev.buffer) :
    aesdRead ⟨heap, other⟩ filp buf count fPos env =
      (aesdRead ⟨heap, dev⟩ filp buf count fPos env).map fun result => { result with kernel := ⟨heap, other⟩ } := by
  simp only [aesdRead, same]
  repeat' split
  all_goals rfl

theorem llseek_elsewhere (api : KernelApi) (heap : Heap) (dev other : AesdDev) (filp : Filp) (off : Int64)
    (whence : Int32) (lock : Bool) (same : other.buffer = dev.buffer) :
    aesdLlseek api ⟨heap, other⟩ filp off whence lock =
      { aesdLlseek api ⟨heap, dev⟩ filp off whence lock with kernel := ⟨heap, other⟩ } := by
  simp only [aesdLlseek, same]
  repeat' split
  all_goals rfl

theorem rel_bind {α β γ : Type} (r : β → γ → Prop) (x : Option α) (f : α → Option β) (g : α → Option γ)
    (each : ∀ a, Option.Rel r (f a) (g a)) : Option.Rel r (x >>= f) (x >>= g) := by
  cases x with
  | none => exact .none
  | some a => exact each a

theorem rel_ite {β γ : Type} (r : β → γ → Prop) (c : Prop) [Decidable c] (x y : Option β) (x' y' : Option γ)
    (yes : Option.Rel r x x') (no : Option.Rel r y y') : Option.Rel r (if c then x else y) (if c then x' else y') := by
  by_cases holds : c
  · simpa only [if_pos holds] using yes
  · simpa only [if_neg holds] using no

theorem alike_free (kernel other : Kernel) (writeBuf : Ptr) (fPos ret : Int64) (alike : Alike kernel other) :
    Option.Rel AlikeResult (kernel.free writeBuf >>= fun final => pure ⟨final, fPos, ret, []⟩)
      (other.free writeBuf >>= fun final => pure ⟨final, fPos, ret, []⟩) := by
  simp only [Kernel.free, ← alike.heap]
  cases kfree kernel.heap writeBuf with
  | none => exact .none
  | some heap => exact .some ⟨alike_on_heap kernel other heap alike, rfl, rfl, rfl⟩

theorem alike_write (api : KernelApi) (kernel other : Kernel) (filp : Filp) (buf : Option Bytes) (count : UInt64)
    (fPos : Int64) (env : WriteEnv) (alike : Alike kernel other) :
    Option.Rel AlikeResult (aesdWrite api kernel filp buf count fPos env)
      (aesdWrite api other filp buf count fPos env) := by
  cases buf with
  | none => exact .some ⟨alike, rfl, rfl, rfl⟩
  | some user =>
      simp only [aesdWrite, ← alike.heap]
      generalize kmalloc api kernel.heap count env.kmalloc = allocated
      have onHeap := fun heap => alike_on_heap kernel other heap alike
      refine rel_ite _ _ _ _ _ _ (.some ⟨alike, rfl, rfl, rfl⟩) ?_
      refine rel_ite _ _ _ _ _ _ (.some ⟨onHeap _, rfl, rfl, rfl⟩) ?_
      refine rel_bind _ _ _ _ fun copied => ?_
      refine rel_ite _ _ _ _ _ _ (alike_free _ _ _ _ _ (onHeap _)) ?_
      refine rel_bind _ _ _ _ fun bytes => ?_
      refine rel_ite _ _ _ _ _ _ (alike_free _ _ _ _ _ (onHeap _)) ?_
      rw [alike_locked api _ _ _ _ _ _ (onHeap copied.1)]
      refine rel_bind _ _ _ _ fun stored => rel_bind _ _ _ _ fun final => ?_
      exact rel_ite _ _ _ _ _ _ (.some (alike_result_refl _)) (.some (alike_result_refl _))

-- Reads, writes and seeks cannot tell two such kernels apart. The ioctl can:
-- past the ring it compares with the pointer itself.
theorem alike_call (api : KernelApi) (kernel other : Kernel) (filp : Filp) (call : DriverCall)
    (alike : Alike kernel other) (notIoctl : ∀ cmd seekTo env, call ≠ .ioctl cmd seekTo env) :
    Option.Rel AlikeResult (driverCall api kernel filp call) (driverCall api other filp call) := by
  obtain ⟨heap, dev⟩ := kernel
  obtain ⟨otherHeap, otherDev⟩ := other
  cases alike.heap
  cases call with
  | read buf count env =>
      have self := read_elsewhere heap dev dev filp buf count filp.fPos env rfl
      rw [driverCall, driverCall, read_elsewhere heap dev otherDev filp buf count filp.fPos env alike.buffer.symm]
      cases ran : aesdRead ⟨heap, dev⟩ filp buf count filp.fPos env with
      | none => exact .none
      | some result =>
          rw [ran, Option.map_some] at self
          rw [self]
          exact .some ⟨alike, rfl, rfl, rfl⟩
  | write buf count env => exact alike_write api _ _ filp buf count filp.fPos env alike
  | llseek off whence lock =>
      rw [driverCall, driverCall, llseek_elsewhere api heap dev otherDev filp off whence lock alike.buffer.symm]
      refine .some ⟨?_, rfl, rfl, rfl⟩
      rw [aesd_llseek_kernel]
      exact alike
  | ioctl cmd seekTo env => exact absurd rfl (notIoctl cmd seekTo env)

def replies (api : KernelApi) (kernel : Kernel) (calls : List (Filp × DriverCall)) :
    Option (List (Int64 × Int64 × Bytes)) :=
  (runCalls api kernel calls).map fun ran =>
    ran.1.map fun event => (event.result.fPos, event.result.ret, event.result.out)

theorem replies_cons (api : KernelApi) (kernel : Kernel) (filp : Filp) (call : DriverCall)
    (rest : List (Filp × DriverCall)) :
    replies api kernel ((filp, call) :: rest) = (driverCall api kernel filp call).bind fun result =>
      (replies api result.kernel rest).map fun later => (result.fPos, result.ret, result.out) :: later := by
  simp only [replies, runCalls]
  cases driverCall api kernel filp call with
  | none => rfl
  | some result =>
      simp only [Option.bind_some]
      cases runCalls api result.kernel rest <;> rfl

theorem alike_replies (api : KernelApi) (kernel other : Kernel) (calls : List (Filp × DriverCall))
    (alike : Alike kernel other) (notIoctl : ∀ call ∈ calls, ∀ cmd seekTo env, call.2 ≠ .ioctl cmd seekTo env) :
    replies api kernel calls = replies api other calls := by
  induction calls generalizing kernel other with
  | nil => rfl
  | cons head rest ih =>
      obtain ⟨filp, call⟩ := head
      have first := alike_call api kernel other filp call alike (notIoctl (filp, call) (by simp))
      rw [replies_cons, replies_cons]
      cases ran : driverCall api kernel filp call with
      | none =>
          rw [ran] at first
          cases otherRan : driverCall api other filp call with
          | none => rfl
          | some next => rw [otherRan] at first; cases first
      | some result =>
          rw [ran] at first
          cases otherRan : driverCall api other filp call with
          | none => rw [otherRan] at first; cases first
          | some next =>
              rw [otherRan] at first
              cases first with
              | some same =>
                  simp only [Option.bind_some, same.fPos, same.ret, same.out]
                  rw [ih result.kernel next.kernel same.kernel fun call member =>
                    notIoctl call (List.mem_cons_of_mem _ member)]

-- A failed call leaves no trace on the device, its file or any later read or
-- write.
structure FailureAtomic (api : KernelApi) (kernel : Kernel) (filp : Filp) (result : CallResult) : Prop where
  buffer : result.kernel.dev.buffer = kernel.dev.buffer
  bytes : workingBytes result.kernel = workingBytes kernel
  size : result.kernel.dev.workingEntry.size = kernel.dev.workingEntry.size
  fPos : result.fPos = filp.fPos
  later : ∀ calls, (∀ call ∈ calls, ∀ cmd seekTo env, call.2 ≠ .ioctl cmd seekTo env) →
    replies api result.kernel calls = replies api kernel calls

theorem refused_alike (api : KernelApi) (kernel : Kernel) (working : Option Bytes)
    (pending : WorkingRep api kernel.heap kernel.dev.workingEntry working)
    (none : kernel.dev.workingEntry.buffptr = nullPtr ∨ kernel.dev.workingEntry.size = 0) :
    Alike (kernel.setWorking { kernel.dev.workingEntry with buffptr := nullPtr }) kernel := by
  obtain ⟨heap, buffer, p, size⟩ := kernel
  refine ⟨rfl, rfl, ?_⟩
  rcases none with gone | zero
  · dsimp only at gone
    exact Or.inl (by rw [Kernel.setWorking, gone])
  · dsimp only at zero pending
    subst zero
    cases pending with
    | empty reserved _ => exact Or.inr ⟨nullPtr, p, null_reserved, reserved, rfl, rfl⟩
    | pending line block => exact absurd (List.eq_nil_of_length_eq_zero block.size.symm) block.nonempty
    | lost _ claimed _ => exact absurd rfl claimed

theorem alike_working_bytes (kernel other : Kernel) (alike : Alike kernel other) :
    workingBytes kernel = workingBytes other ∧ kernel.dev.workingEntry.size = other.dev.workingEntry.size := by
  rw [workingBytes, workingBytes, alike.heap]
  rcases alike.working with same | ⟨p, q, _, _, same, otherSame⟩
  · rw [same]
    exact ⟨rfl, rfl⟩
  · rw [same, otherSame]
    exact ⟨rfl, rfl⟩

theorem alike_failure_atomic (api : KernelApi) (kernel : Kernel) (filp : Filp) (result : CallResult)
    (alike : Alike result.kernel kernel) (moved : result.fPos = filp.fPos) : FailureAtomic api kernel filp result := by
  obtain ⟨bytes, size⟩ := alike_working_bytes result.kernel kernel alike
  exact ⟨alike.buffer, bytes, size, moved, fun calls => alike_replies api result.kernel kernel calls alike⟩

theorem failed_write_iff (api : KernelApi) (kernel : Kernel) (content : List AesdBufferEntry) (lines : List Bytes)
    (working : Option Bytes) (filp : Filp) (buf : Option Bytes) (count : UInt64) (env : WriteEnv) (result : CallResult)
    (rep : DevRep api kernel content lines working)
    (ran : aesdWrite api kernel filp buf count filp.fPos env = some result) (failure : result.ret < 0)
    (listed : result.ret ≠ -ePerm) :
    FailureAtomic api kernel filp result ↔ ¬ DropsPending api kernel filp buf count env := by
  obtain ⟨found, foundRan, effect⟩ := aesd_write_effect api kernel content _ working filp buf count filp.fPos env rep
  cases Option.some.inj (ran.symm.trans foundRan)
  obtain ⟨moved, ⟨granted, same, _⟩ | ⟨refused, next, nextRep⟩⟩ :=
    write_fails api kernel content _ working filp buf count filp.fPos env.krealloc _
      result (Int64.not_le.mpr failure) rep effect
  · refine ⟨fun _ drops => ?_, fun _ => ?_⟩
    · rw [drops.refused] at granted
      cases granted
    · apply alike_failure_atomic api kernel filp result _ moved
      rw [same listed]
      exact alike_refl kernel
  · refine ⟨fun atomic drops => ?_, fun kept => ?_⟩
    · have bytes := atomic.bytes
      rw [dev_rep_working api result.kernel content _ _ nextRep,
        dev_rep_working api kernel content _ working rep] at bytes
      have pending := rep.pending
      have held := drops.held
      have claimed := drops.claimed
      generalize kernel.dev.workingEntry = entry at pending held claimed
      cases pending with
      | empty _ zero => exact claimed zero
      | pending line block =>
          cases line with
          | nil => exact block.nonempty rfl
          | cons head tail => cases bytes
      | lost gone _ _ => exact held gone
    · apply alike_failure_atomic api kernel filp result _ moved
      rw [next]
      apply refused_alike api kernel working rep.pending
      by_contra both
      rw [not_or] at both
      exact kept ⟨refused, both.1, both.2⟩

theorem contribution_supplied (event : Event) (byte : UInt8) (member : byte ∈ contributionBy event) :
    ∃ user count env, event.call = .write (some user) count env ∧ 0 ≤ event.result.ret ∧
      byte ∈ accepted user count := by
  obtain ⟨kernel, filp, call, result⟩ := event
  cases call with
  | write buf count env =>
      by_cases negative : result.ret < 0
      · simp [contributionBy, contribution, negative] at member
      · simp only [contributionBy, contribution, negative, if_false] at member
        cases buf with
        | none => simp [accepted, userBytes, Framing.upTo] at member
        | some user => exact ⟨user, count, env, rfl, Int64.not_lt.mp negative, member⟩
  | _ => simp [contributionBy] at member

theorem read_supplied (api : KernelApi) (events : List Event) (kernel : Kernel) (run : Run api events kernel)
    (kept : ∀ event ∈ events, ¬ EventDropsPending api event) (filp : Filp) (buf : Ptr) (count : UInt64) (env : ReadEnv)
    (result : CallResult) (ran : aesdRead kernel filp buf count filp.fPos env = some result) (byte : UInt8)
    (member : byte ∈ result.out) :
    ∃ event ∈ events, ∃ user count env,
      event.call = .write (some user) count env ∧ 0 ≤ event.result.ret ∧ byte ∈ accepted user count := by
  obtain ⟨content, bytes, rep, text⟩ := run_keeps_stream api events kernel run kept
  obtain ⟨found, foundRan, _, stored⟩ := aesd_read_effect api kernel content _ _ filp buf count filp.fPos env rep
  cases Option.some.inj (ran.symm.trans foundRan)
  have inStream : byte ∈ streamOf events := by
    rw [← text]
    apply List.mem_append_left
    obtain ⟨line, newest, inLine⟩ := List.mem_flatten.mp (stored member)
    exact List.mem_flatten.mpr ⟨line, List.drop_subset _ _ newest, inLine⟩
  obtain ⟨event, member, added⟩ := List.mem_flatMap.mp inStream
  exact ⟨event, member, contribution_supplied event byte added⟩

theorem failed_write_atomic_exactly (api : KernelApi) (events : List Event) (kernel : Kernel)
    (run : Run api events kernel) :
    (∀ filp buf count env result, driverCall api kernel filp (.write buf count env) = some result → result.ret < 0 →
      result.ret ≠ -ePerm → (FailureAtomic api kernel filp result ↔ ¬ DropsPending api kernel filp buf count env)) ∧
    ((∀ event ∈ events, ¬ EventDropsPending api event) →
      ∀ filp buf count env result, driverCall api kernel filp (.read buf count env) = some result →
        ∀ byte ∈ result.out, ∃ event ∈ events, ∃ user count env,
          event.call = .write (some user) count env ∧ 0 ≤ event.result.ret ∧ byte ∈ accepted user count) := by
  constructor
  · intro filp buf count env result ran failure listed
    obtain ⟨content, working, rep⟩ := run_rep api events kernel run
    exact failed_write_iff api kernel content _ working filp buf count env result rep ran failure listed
  · intro kept filp buf count env result ran byte member
    exact read_supplied api events kernel run kept filp buf count env result ran byte member

def refusedWrite (text : Bytes) (writeBuf : Ptr) : WriteCall :=
  ⟨⟨true, 0⟩, some text, UInt64.ofNat text.length, ⟨⟨some writeBuf, fun _ => 0⟩, true, true, ⟨none, fun _ => 0⟩⟩⟩

theorem failed_write_atomic_pending_line :
    ∃ events kernel result, Run stockKernel events kernel ∧ workingBytes kernel = some [97, 98] ∧
      driverCall stockKernel kernel ⟨true, 0⟩ failedCopy.toDriver.2 = some result ∧ result.ret = -eFault ∧
      FailureAtomic stockKernel kernel ⟨true, 0⟩ result := by
  have seen : (runCalls stockKernel loadedModule [(sampleWrite [97, 98] 4096 8192).toDriver]).map (fun ran =>
      (workingBytes ran.2, callRefused stockKernel ran.2 failedCopy,
        (driverCall stockKernel ran.2 ⟨true, 0⟩ failedCopy.toDriver.2).map CallResult.ret)) =
      some (some [97, 98], false, some (-eFault)) := by decide
  obtain ⟨events, kernel, ran, run⟩ := sample_run [(sampleWrite [97, 98] 4096 8192).toDriver] (by decide)
  rw [ran, Option.map_some, Option.some.injEq, Prod.mk.injEq, Prod.mk.injEq] at seen
  obtain ⟨before, granted, called⟩ := seen
  obtain ⟨result, resultRan, ret⟩ := Option.map_eq_some_iff.mp called
  refine ⟨events, kernel, result, run, before, resultRan, ret, ?_⟩
  refine ((failed_write_atomic_exactly stockKernel events kernel run).1 ⟨true, 0⟩ failedCopy.buf
    failedCopy.count failedCopy.env result resultRan (by rw [ret]; decide) (by rw [ret]; decide)).mpr fun drops => ?_
  exact absurd (granted.symm.trans drops.refused) (by decide)

theorem failed_write_loses_pending :
    ∃ events kernel result, Run stockKernel events kernel ∧ workingBytes kernel = some [97, 98] ∧
      driverCall stockKernel kernel ⟨true, 0⟩ (refusedWrite [99] 4096).toDriver.2 = some result ∧ result.ret = -eNoMem ∧
      workingBytes result.kernel = none ∧ ¬ FailureAtomic stockKernel kernel ⟨true, 0⟩ result := by
  have seen : (runCalls stockKernel loadedModule [(sampleWrite [97, 98] 4096 8192).toDriver]).map (fun ran =>
      (workingBytes ran.2,
        (driverCall stockKernel ran.2 ⟨true, 0⟩ (refusedWrite [99] 4096).toDriver.2).map fun result =>
        (result.ret, workingBytes result.kernel))) = some (some [97, 98], some (-eNoMem, none)) := by decide
  obtain ⟨events, kernel, ran, run⟩ := sample_run [(sampleWrite [97, 98] 4096 8192).toDriver] (by decide)
  rw [ran, Option.map_some] at seen
  obtain ⟨before, called⟩ := Prod.mk.inj (Option.some.inj seen)
  obtain ⟨result, resultRan, same⟩ := Option.map_eq_some_iff.mp called
  obtain ⟨ret, after⟩ := Prod.mk.inj same
  refine ⟨events, kernel, result, run, before, resultRan, ret, after, fun atomic => ?_⟩
  have bytes := atomic.bytes
  rw [before, after] at bytes
  cases bytes

end AesdChar
