import AesdChar.WriteStep

set_option autoImplicit false

namespace AesdChar

open CyclicQueue Framing HeapStore

def reallocated (api : KernelApi) (kernel : Kernel) (count : UInt64) (answer : Answer) : Option Ptr :=
  (krealloc api kernel.heap kernel.dev.workingEntry.buffptr (kernel.dev.workingEntry.size + count) answer).map Prod.snd

theorem reallocated_allocatable (api : KernelApi) (kernel : Kernel) (count : UInt64) (answer : Answer) (q : Ptr)
    (answered : reallocated api kernel count answer = some q) (granted : q ≠ nullPtr)
    (sizeFits : kernel.dev.workingEntry.size.toNat ≤ api.kmallocMaxSize)
    (countFits : count.toNat ≤ api.kmallocMaxSize) :
    Allocatable api (kernel.dev.workingEntry.size.toNat + count.toNat) answer := by
  obtain ⟨⟨heap, _⟩, ran, rfl⟩ := Option.map_eq_some_iff.mp answered
  have allocatable := krealloc_allocatable api _ heap _ _ _ answer ran granted
  rwa [size_add_exact api _ count sizeFits countFits] at allocatable

theorem write_locked_open (api : KernelApi) (kernel mid next : Kernel) (writeBuf : Ptr) (count : UInt64)
    (answer : Answer) (grown : reallocWorkingEntry api kernel count answer = some mid)
    (held : mid.dev.workingEntry.buffptr ≠ nullPtr)
    (appended : (appendToWorkingEntry mid writeBuf count).map (fun done => growWorkingEntry done count) = some next) :
    writeLocked api kernel writeBuf count false answer = some (next, true) := by
  obtain ⟨done, wrote, rfl⟩ := Option.map_eq_some_iff.mp appended
  simp [writeLocked, grown, held, wrote]

theorem write_locked_line (api : KernelApi) (kernel mid next added freed : Kernel) (writeBuf retBuf : Ptr)
    (count : UInt64) (answer : Answer)
    (grown : reallocWorkingEntry api kernel count answer = some mid) (held : mid.dev.workingEntry.buffptr ≠ nullPtr)
    (appended : (appendToWorkingEntry mid writeBuf count).map (fun done => growWorkingEntry done count) = some next)
    (adding : addWorkingEntry next = some (added, retBuf)) (freeing : freeEvicted added retBuf = some freed) :
    writeLocked api kernel writeBuf count true answer = some (resetWorkingEntry freed, true) := by
  obtain ⟨done, wrote, rfl⟩ := Option.map_eq_some_iff.mp appended
  simp [writeLocked, grown, held, wrote, adding, freeing]

theorem append_effect (api : KernelApi) (kernel : Kernel) (content : List AesdBufferEntry) (lines : List Bytes)
    (working : Option Bytes) (writeBuf : Ptr) (data : Bytes) (count : UInt64) (answer : Answer)
    (rep : DevRep api kernel content lines working) (buf : WriteBuf kernel content writeBuf data)
    (countEq : count.toNat = data.length) (countFits : data.length ≤ api.kmallocMaxSize) :
    (reallocated api kernel count answer = some nullPtr ∧
      reallocWorkingEntry api kernel count answer =
        some (kernel.setWorking { kernel.dev.workingEntry with buffptr := nullPtr })) ∨
    (∃ q mid next, reallocated api kernel count answer = some q ∧ q ≠ nullPtr ∧
      reallocWorkingEntry api kernel count answer = some mid ∧ mid.dev.workingEntry.buffptr ≠ nullPtr ∧
      (appendToWorkingEntry mid writeBuf count).map (fun done => growWorkingEntry done count) = some next ∧
      Locked api kernel next content lines (some (baseBytes kernel working answer ++ data)) writeBuf) := by
  obtain ⟨heap, q, done, cases⟩ := realloc_working api kernel working count answer rep.pending (by omega)
  have answered : reallocated api kernel count answer = some q := by simp [reallocated, done]
  have grown : reallocWorkingEntry api kernel count answer =
      some (Kernel.setWorking ⟨heap, kernel.dev⟩ { kernel.dev.workingEntry with buffptr := q }) := by
    simp only [reallocWorkingEntry, done]
  have length := base_length api kernel working answer rep.pending
  cases cases with
  | refused => exact Or.inl ⟨answered, grown⟩
  | empty reserved zero none =>
      have noData : data = [] := List.eq_nil_of_length_eq_zero (by omega)
      have noCount : count = 0 := UInt64.toNat_inj.mp (by simpa using none)
      have noSize : kernel.dev.workingEntry.size = 0 := UInt64.toNat_inj.mp (by simp [← length, zero])
      refine Or.inr ⟨_, _, ⟨kernel.heap, { kernel.dev with workingEntry := ⟨zeroSizePtr, 0⟩ }⟩, answered,
        zero_size_not_null, grown,
        zero_size_not_null, ?_, ⟨⟨rep.ring, rep.stored, ?_, rep.distinct, ?_⟩, fun _ => rfl, ?_⟩⟩
      · simp [appendToWorkingEntry, growWorkingEntry, Kernel.setWorking, noCount, noSize, heapRead, heapWrite]
      · rw [zero, noData]
        exact .empty zero_size_reserved rfl
      · intro entry member same
        obtain ⟨_, _, block⟩ := stored_member api kernel.heap content lines rep.stored entry member
        have real := block.real
        rw [same] at real
        exact absurd zero_size_reserved (Bool.eq_false_iff.mp real)
      · rintro real (same | ⟨entry, member, same⟩)
        · rw [same] at real
          exact absurd zero_size_reserved (Bool.eq_false_iff.mp real)
        · exact buf.foreign real (Or.inr ⟨entry, member, same⟩)
  | block heap q bytes real live total fits positive kept others origin =>
      have sum := size_add_exact api _ count (working_size_fits api _ _ working rep.pending) (by omega)
      obtain ⟨next, appended, result⟩ :=
        append_to_block api kernel content lines working writeBuf data _ count heap q bytes
        rep buf countEq length (by omega) real live (by omega) fits positive kept others origin
      exact Or.inr ⟨q, _, next, answered, real_not_null q real, grown, real_not_null q real, appended,
        result⟩

theorem write_locked_effect (api : KernelApi) (kernel : Kernel) (content : List AesdBufferEntry) (lines : List Bytes)
    (working : Option Bytes) (writeBuf : Ptr) (data : Bytes) (count : UInt64) (newLineFound : Bool) (answer : Answer)
    (rep : DevRep api kernel content lines working) (buf : WriteBuf kernel content writeBuf data)
    (countEq : count.toNat = data.length) (countFits : data.length ≤ api.kmallocMaxSize)
    (ended : newLineFound = true → data ≠ []) :
    (reallocated api kernel count answer = some nullPtr ∧
      writeLocked api kernel writeBuf count newLineFound answer =
        some (kernel.setWorking { kernel.dev.workingEntry with buffptr := nullPtr }, false)) ∨
    (∃ q next nextContent, reallocated api kernel count answer = some q ∧ q ≠ nullPtr ∧
      writeLocked api kernel writeBuf count newLineFound answer = some (next, true) ∧
      Locked api kernel next nextContent
        (if newLineFound then push 10 lines (baseBytes kernel working answer ++ data) else lines)
        (some (if newLineFound then [] else baseBytes kernel working answer ++ data)) writeBuf) := by
  rcases append_effect api kernel content lines working writeBuf data count answer rep buf countEq countFits with
    ⟨answered, grown⟩ | ⟨q, mid, next, answered, held, grown, midHeld, appended, result⟩
  · exact Or.inl ⟨answered, by simp [writeLocked, grown, Kernel.setWorking]⟩
  · refine Or.inr ?_
    cases newLineFound with
    | false =>
        exact ⟨q, next, content, answered, held,
          write_locked_open api kernel mid next writeBuf count answer grown midHeld appended, by simpa using result⟩
    | true =>
        have nonempty : baseBytes kernel working answer ++ data ≠ [] := fun empty =>
          ended rfl (List.append_eq_nil_iff.mp empty).2
        obtain ⟨added, freed, adding, freeing, moved⟩ :=
          complete_line api next content lines _ writeBuf result.rep nonempty result.foreign
        exact ⟨q, resetWorkingEntry freed, _, answered, held,
          write_locked_line api kernel mid next added freed writeBuf _ count answer grown midHeld
            appended adding freeing,
          ⟨moved.rep, fun real => (moved.untouched real).trans (result.untouched real), moved.foreign⟩⟩

def userBytes (user : Bytes) (count : UInt64) : Bytes := user.take count.toNat

def accepted (user : Bytes) (count : UInt64) : Bytes := upTo newLine (userBytes user count)

def kreallocRefused (api : KernelApi) (kernel : Kernel) (filp : Filp) (buf : Option Bytes) (count : UInt64)
    (env : WriteEnv) : Bool :=
  match buf with
  | none => false
  | some user =>
      let (heap, writeBuf) := kmalloc api kernel.heap count env.kmalloc
      if writeBuf = nullPtr ∨ filp.privateData = false then false
      else match copyFromUser heap writeBuf user count env.copyFromUser with
        | some (copied, true) =>
            env.lock && decide (reallocated api ⟨copied, kernel.dev⟩ (bytesUpToNewLine (userBytes user count) count)
              env.krealloc = some nullPtr)
        | _ => false

-- kmalloc, the open file, copy_from_user and the lock; krealloc is apart.
def writeGranted (api : KernelApi) (kernel : Kernel) (filp : Filp) (buf : Option Bytes) (count : UInt64)
    (env : WriteEnv) : Bool :=
  match buf with
  | none => false
  | some user =>
      decide ((kmalloc api kernel.heap count env.kmalloc).2 ≠ nullPtr) && filp.privateData &&
        (decide (count = 0) || env.copyFromUser && decide (count.toNat ≤ user.length)) && env.lock

inductive WriteEffect (api : KernelApi) (kernel : Kernel) (content : List AesdBufferEntry) (lines : List Bytes)
    (working : Option Bytes) (filp : Filp) (buf : Option Bytes) (count : UInt64) (fPos : Int64) (answer : Answer) :
    Bool → CallResult → Prop where
  | rejected (ret : Int64) (negative : ret < 0) :
      WriteEffect api kernel content lines working filp buf count fPos answer false ⟨kernel, fPos, ret, []⟩
  | leaked (heap : Heap) (unopened : filp.privateData = false)
      (rep : DevRep api ⟨heap, kernel.dev⟩ content lines working) :
      WriteEffect api kernel content lines working filp buf count fPos answer false
        ⟨⟨heap, kernel.dev⟩, fPos, -ePerm, []⟩
  | refused :
      WriteEffect api kernel content lines working filp buf count fPos answer true
        ⟨kernel.setWorking { kernel.dev.workingEntry with buffptr := nullPtr }, fPos, -eNoMem, []⟩
  | kept (user : Bytes) (next : Kernel) (nextContent : List AesdBufferEntry) (given : buf = some user)
      (mapped : count.toNat ≤ user.length) (fits : count.toNat ≤ api.kmallocMaxSize)
      (absent : newLine ∉ userBytes user count)
      (rep : DevRep api next nextContent lines (some (baseBytes kernel working answer ++ accepted user count))) :
      WriteEffect api kernel content lines working filp buf count fPos answer false
        ⟨next, fPos + count.toInt64, count.toInt64, []⟩
  | completed (user : Bytes) (next : Kernel) (nextContent : List AesdBufferEntry) (given : buf = some user)
      (mapped : count.toNat ≤ user.length) (fits : count.toNat ≤ api.kmallocMaxSize)
      (present : newLine ∈ userBytes user count)
      (rep : DevRep api next nextContent (push 10 lines (baseBytes kernel working answer ++ accepted user count))
        (some [])) :
      WriteEffect api kernel content lines working filp buf count fPos answer false
        ⟨next, fPos + count.toInt64, count.toInt64, []⟩

inductive CallBlock (kernel : Kernel) (bytes : Bytes) : Heap → Ptr → Prop where
  | empty (noBytes : bytes = []) : CallBlock kernel bytes kernel.heap zeroSizePtr
  | block (p : Ptr) (fresh : freshAddress kernel.heap p = true) (someBytes : bytes ≠ []) :
      CallBlock kernel bytes (Function.update kernel.heap p (some bytes)) p

theorem kmalloc_call (api : KernelApi) (kernel : Kernel) (count : UInt64) (answer : Answer) :
    kmalloc api kernel.heap count answer = (kernel.heap, nullPtr) ∨
    ∃ heap w, kmalloc api kernel.heap count answer = (heap, w) ∧ w ≠ nullPtr ∧ count.toNat ≤ api.kmallocMaxSize ∧
      CallBlock kernel (staleBytes answer 0 count.toNat) heap w := by
  have cases := kmalloc_cases api kernel.heap count answer
  generalize kmalloc api kernel.heap count answer = result at cases
  cases cases with
  | refused => exact Or.inl rfl
  | zero empty =>
      subst empty
      exact Or.inr ⟨_, _, rfl, zero_size_not_null, Nat.zero_le _, .empty (by simp [staleBytes])⟩
  | block p fresh positive fits =>
      refine Or.inr ⟨_, _, rfl, real_not_null p (fresh_address _ p fresh).1, fits, .block p fresh ?_⟩
      intro empty
      have zero : count.toNat = 0 := by simpa using congrArg List.length empty
      exact positive (UInt64.toNat_inj.mp zero)

theorem call_block_free (kernel : Kernel) (bytes : Bytes) (heap : Heap) (w : Ptr)
    (call : CallBlock kernel bytes heap w) :
    Kernel.free ⟨heap, kernel.dev⟩ w = some kernel := by
  cases call with
  | empty _ => simp [Kernel.free, kfree_reserved _ _ zero_size_reserved]
  | block _ fresh _ =>
      obtain ⟨real, absent⟩ := fresh_address kernel.heap w fresh
      have back : Function.update (Function.update kernel.heap w (some bytes)) w none = kernel.heap := by
        rw [Function.update_idem, ← absent, Function.update_eq_self]
      simp [Kernel.free, kfree_live _ w bytes real (Function.update_self ..), back]

theorem call_block_rep (api : KernelApi) (kernel : Kernel) (content : List AesdBufferEntry) (lines : List Bytes)
    (working : Option Bytes) (bytes : Bytes) (heap : Heap) (w : Ptr) (rep : DevRep api kernel content lines working)
    (call : CallBlock kernel bytes heap w) : DevRep api ⟨heap, kernel.dev⟩ content lines working := by
  cases call with
  | empty _ => exact rep
  | block _ fresh _ =>
      exact dev_rep_update api kernel content lines working w _
        (fresh_foreign api kernel content lines working rep w fresh) rep

theorem call_block_copy (kernel : Kernel) (user : Bytes) (count : UInt64) (answer : Answer) (heap : Heap) (w : Ptr)
    (mapped : count.toNat ≤ user.length) (call : CallBlock kernel (staleBytes answer 0 count.toNat) heap w) :
    ∃ copied, copyFromUser heap w user count true = some (copied, true) ∧
      CallBlock kernel (userBytes user count) copied w := by
  have length : (userBytes user count).length = count.toNat := by simp [userBytes, mapped]
  by_cases zero : count = 0
  · refine ⟨heap, by simp [copyFromUser, zero], ?_⟩
    have noBytes : userBytes user count = staleBytes answer 0 count.toNat := by simp [userBytes, zero, staleBytes]
    rw [noBytes]
    exact call
  · have positive : userBytes user count ≠ [] := by
      intro empty
      rw [empty] at length
      exact zero (UInt64.toNat_inj.mp length.symm)
    cases call with
    | empty noBytes =>
        have none : count.toNat = 0 := by simpa using congrArg List.length noBytes
        exact absurd (UInt64.toNat_inj.mp none) zero
    | block _ fresh _ =>
        have write := heap_write_end (Function.update kernel.heap w (some (staleBytes answer 0 count.toNat))) w _
          (userBytes user count) 0 (fresh_address _ w fresh).1 (Function.update_self ..) (by simp [length])
        refine ⟨Function.update kernel.heap w (some (userBytes user count)), ?_, .block w fresh positive⟩
        simp only [userBytes, List.take_zero, List.nil_append, Function.update_idem] at write ⊢
        simp [copyFromUser, zero, mapped, write]

theorem call_block_buf (api : KernelApi) (kernel : Kernel) (content : List AesdBufferEntry) (lines : List Bytes)
    (working : Option Bytes) (bytes data : Bytes) (heap : Heap) (w : Ptr)
    (rep : DevRep api kernel content lines working) (call : CallBlock kernel bytes heap w)
    (front : bytes.take data.length = data) :
    WriteBuf ⟨heap, kernel.dev⟩ content w data := by
  have shorter : data.length ≤ bytes.length := by
    have lengths := congrArg List.length front
    rw [List.length_take] at lengths
    omega
  cases call with
  | empty noBytes =>
      have noData : data = [] := List.eq_nil_of_length_eq_zero (by simpa [noBytes] using shorter)
      refine ⟨by simp [noData, heapRead], fun real => ?_, fun real => ?_, fun _ => noData⟩
      all_goals exact absurd zero_size_reserved (Bool.eq_false_iff.mp real)
  | block _ fresh _ =>
      obtain ⟨real, _⟩ := fresh_address kernel.heap w fresh
      have foreign := fresh_foreign api kernel content lines working rep w fresh
      refine ⟨?_, fun _ => ⟨bytes, Function.update_self ..⟩, fun _ => foreign, fun reserved => ?_⟩
      · rw [heap_read_live _ w bytes 0 data.length real (Function.update_self ..) (by omega), List.drop_zero, front]
      · rw [real] at reserved
        cases reserved

theorem call_block_read (kernel : Kernel) (bytes : Bytes) (heap : Heap) (w : Ptr)
    (call : CallBlock kernel bytes heap w) :
    heapRead heap w 0 bytes.length = some bytes := by
  cases call with
  | empty noBytes => simp [noBytes, heapRead]
  | block _ fresh _ =>
      rw [heap_read_live _ w bytes 0 _ (fresh_address _ w fresh).1 (Function.update_self ..) (by omega)]; simp

theorem locked_free (api : KernelApi) (kernel next : Kernel) (content : List AesdBufferEntry) (lines : List Bytes)
    (working : Option Bytes) (w : Ptr) (live : zeroOrNullPtr w = false → ∃ block, kernel.heap w = some block)
    (result : Locked api kernel next content lines working w) :
    ∃ final, next.free w = some final ∧ DevRep api final content lines working := by
  by_cases real : zeroOrNullPtr w = false
  · obtain ⟨block, here⟩ := live real
    have still : next.heap w = some block := (result.untouched real).trans here
    exact ⟨_, by simp only [Kernel.free, kfree_live next.heap w block real still, Option.map_some],
      dev_rep_update api next content lines working w none (result.foreign real) result.rep⟩
  · exact ⟨next, by simp [Kernel.free, kfree_reserved next.heap w (by simpa using real)], result.rep⟩

theorem copy_from_user_cases (heap : Heap) (w : Ptr) (user : Bytes) (count : UInt64) (ok : Bool) :
    ((decide (count = 0) || ok && decide (count.toNat ≤ user.length)) = false ∧
      copyFromUser heap w user count ok = some (heap, false)) ∨
    ((decide (count = 0) || ok && decide (count.toNat ≤ user.length)) = true ∧ count.toNat ≤ user.length ∧
      copyFromUser heap w user count ok = copyFromUser heap w user count true) := by
  by_cases zero : count = 0
  · exact Or.inr ⟨by simp [zero], by simp [zero], by simp [copyFromUser, zero]⟩
  · by_cases success : ok = true ∧ count.toNat ≤ user.length
    · exact Or.inr ⟨by simp [success], success.2, by rw [success.1]⟩
    · refine Or.inl ⟨?_, by simp only [copyFromUser, if_neg zero, if_neg success]⟩
      rw [Bool.eq_false_iff]
      simpa [zero] using success

theorem accepted_take (user : Bytes) (count : UInt64) :
    (userBytes user count).take (accepted user count).length = accepted user count :=
  up_to_take newLine (userBytes user count)

theorem accepted_line (user : Bytes) (count : UInt64) (present : newLine ∈ userBytes user count) :
    IsLine newLine (accepted user count) :=
  up_to_line newLine _ present

theorem accepted_open (user : Bytes) (count : UInt64) (absent : newLine ∉ userBytes user count) :
    accepted user count = userBytes user count :=
  up_to_open newLine _ absent

theorem aesd_write_locked (api : KernelApi) (kernel : Kernel) (content : List AesdBufferEntry) (lines : List Bytes)
    (working : Option Bytes) (filp : Filp) (user : Bytes) (count : UInt64) (fPos : Int64) (env : WriteEnv)
    (heap copied : Heap) (w : Ptr) (rep : DevRep api kernel content lines working) (opened : filp.privateData = true)
    (allocated : kmalloc api kernel.heap count env.kmalloc = (heap, w)) (held : w ≠ nullPtr)
    (fits : count.toNat ≤ api.kmallocMaxSize) (mapped : count.toNat ≤ user.length)
    (copying : copyFromUser heap w user count env.copyFromUser = some (copied, true))
    (call : CallBlock kernel (userBytes user count) copied w) (locked : env.lock = true) :
    ∃ result, aesdWrite api kernel filp (some user) count fPos env = some result ∧
      WriteEffect api kernel content lines working filp (some user) count fPos env.krealloc
        (kreallocRefused api kernel filp (some user) count env) result ∧
      (kreallocRefused api kernel filp (some user) count env = false → result.ret = count.toInt64 ∧
        Allocatable api (kernel.dev.workingEntry.size.toNat + (accepted user count).length) env.krealloc) := by
  have length : (userBytes user count).length = count.toNat := by simp [userBytes, mapped]
  have read := call_block_read kernel _ copied w call
  rw [length] at read
  have counted := bytes_up_to_new_line (userBytes user count) count length.symm
  have shorter := up_to_length newLine (userBytes user count)
  have found := memchr_found (userBytes user count)
  have buf := call_block_buf api kernel content lines working _ _ copied w rep call (accepted_take user count)
  have callRep := call_block_rep api kernel content lines working _ copied w rep call
  have ended : (memchr (userBytes user count) newLine).isSome = true → accepted user count ≠ [] := by
    intro present
    rw [found, decide_eq_true_iff] at present
    obtain ⟨body, line, _⟩ := accepted_line user count present
    simp [line]
  have refusedEq : kreallocRefused api kernel filp (some user) count env =
      decide (reallocated api ⟨copied, kernel.dev⟩ (bytesUpToNewLine (userBytes user count) count) env.krealloc =
        some nullPtr) := by
    simp [kreallocRefused, allocated, held, opened, copying, locked]
  rw [refusedEq]
  rcases write_locked_effect api ⟨copied, kernel.dev⟩ content lines working w (accepted user count) _ _ env.krealloc
      callRep buf counted (by rw [accepted]; omega) ended with
    ⟨answered, run⟩ | ⟨q, next, nextContent, answered, notNull, run, result⟩
  · refine ⟨_, ?_, by rw [answered, decide_eq_true rfl]; exact .refused, fun kept => by simp [answered] at kept⟩
    have freed := call_block_free (kernel.setWorking { kernel.dev.workingEntry with buffptr := nullPtr }) _ copied w
      (by cases call with
        | empty noBytes => exact .empty noBytes
        | block _ fresh someBytes => exact .block w fresh someBytes)
    simp only [Kernel.setWorking] at freed
    simp [aesdWrite, allocated, held, opened, copying, read, locked, run, Kernel.setWorking, freed]
  · have different : (some q : Option Ptr) ≠ some nullPtr := fun same => notNull (Option.some.inj same)
    obtain ⟨final, freed, finalRep⟩ := locked_free api _ next nextContent _ _ w buf.live result
    have small : (bytesUpToNewLine (userBytes user count) count).toNat ≤ api.kmallocMaxSize := by
      omega
    have allocatable := reallocated_allocatable api ⟨copied, kernel.dev⟩ _ env.krealloc q answered notNull
      (working_size_fits api _ _ working rep.pending) small
    rw [counted] at allocatable
    refine ⟨⟨final, fPos + count.toInt64, count.toInt64, []⟩, ?_, ?_, fun _ => ⟨rfl, allocatable⟩⟩
    · simp [aesdWrite, allocated, held, opened, copying, read, locked, run, freed]
    · rw [answered, decide_eq_false different]
      rw [found] at finalRep
      by_cases present : newLine ∈ userBytes user count
      · simp only [present, decide_true, if_true] at finalRep
        exact .completed user final nextContent rfl mapped fits present finalRep
      · simp only [present, decide_false, Bool.false_eq_true, if_false] at finalRep
        exact .kept user final nextContent rfl mapped fits present finalRep

theorem aesd_write_outcome (api : KernelApi) (kernel : Kernel) (content : List AesdBufferEntry) (lines : List Bytes)
    (working : Option Bytes) (filp : Filp) (buf : Option Bytes) (count : UInt64) (fPos : Int64) (env : WriteEnv)
    (rep : DevRep api kernel content lines working) :
    ∃ result, aesdWrite api kernel filp buf count fPos env = some result ∧
      WriteEffect api kernel content lines working filp buf count fPos env.krealloc
        (kreallocRefused api kernel filp buf count env) result ∧
      (writeGranted api kernel filp buf count env = false → result.ret < 0) ∧
      (writeGranted api kernel filp buf count env = true → kreallocRefused api kernel filp buf count env = false →
        result.ret = count.toInt64 ∧
        Allocatable api (kernel.dev.workingEntry.size.toNat + (accepted (buf.getD []) count).length) env.krealloc) := by
  cases buf with
  | none =>
      exact ⟨_, rfl, .rejected _ (by decide), fun _ => show -eInval < 0 by decide,
        fun granted => by simp [writeGranted] at granted⟩
  | some user =>
      rcases kmalloc_call api kernel count env.kmalloc with allocated | ⟨heap, w, allocated, held, fits, call⟩
      · refine ⟨⟨kernel, fPos, -eNoMem, []⟩, by simp [aesdWrite, allocated], ?_, fun _ => show -eNoMem < 0 by decide,
          fun granted => by simp [writeGranted, allocated] at granted⟩
        simp only [kreallocRefused, allocated, true_or, if_true]
        exact .rejected _ (by decide)
      · by_cases opened : filp.privateData = true
        · rcases copy_from_user_cases heap w user count env.copyFromUser with
            ⟨short, failed⟩ | ⟨whole, mapped, copies⟩
          · have freed := call_block_free kernel _ heap w call
            refine ⟨⟨kernel, fPos, -eFault, []⟩, by simp [aesdWrite, allocated, held, opened, failed, freed], ?_,
              fun _ => show -eFault < 0 by decide, fun granted => by simp [writeGranted, short] at granted⟩
            simp only [kreallocRefused, allocated, held, opened, Bool.true_eq_false, or_self, if_false, failed]
            exact .rejected _ (by decide)
          · obtain ⟨copied, copying, copiedCall⟩ := call_block_copy kernel user count env.kmalloc heap w mapped call
            rw [← copies] at copying
            by_cases locked : env.lock = true
            · obtain ⟨result, run, effect, counted⟩ :=
                aesd_write_locked api kernel content lines working filp user count
                fPos env heap copied w rep opened allocated held fits mapped copying copiedCall locked
              have granted : writeGranted api kernel filp (some user) count env = true := by
                simp only [writeGranted, allocated, opened, whole, locked, Bool.and_true]
                simpa using held
              exact ⟨result, run, effect, fun denied => by simp [granted] at denied, fun _ => counted⟩
            · have unlocked : env.lock = false := by simpa using locked
              have read := call_block_read kernel _ copied w copiedCall
              have length : (userBytes user count).length = count.toNat := by simp [userBytes, mapped]
              rw [length] at read
              have freed := call_block_free kernel _ copied w copiedCall
              refine ⟨⟨kernel, fPos, -eRestartSys, []⟩,
                by simp [aesdWrite, allocated, held, opened, copying, read, unlocked, freed], ?_,
                fun _ => show -eRestartSys < 0 by decide, fun granted => by simp [writeGranted, unlocked] at granted⟩
              simp only [kreallocRefused, allocated, held, opened, Bool.true_eq_false, or_self, if_false,
                copying, unlocked,
                Bool.false_and]
              exact .rejected _ (by decide)
        · have unopened : filp.privateData = false := by simpa using opened
          refine ⟨⟨⟨heap, kernel.dev⟩, fPos, -ePerm, []⟩, by simp [aesdWrite, allocated, held, unopened], ?_,
            fun _ => show -ePerm < 0 by decide, fun granted => by simp [writeGranted, unopened] at granted⟩
          simp only [kreallocRefused, allocated, unopened, or_true, if_true]
          exact .leaked heap unopened (call_block_rep api kernel content lines working _ heap w rep call)

theorem aesd_write_effect (api : KernelApi) (kernel : Kernel) (content : List AesdBufferEntry) (lines : List Bytes)
    (working : Option Bytes) (filp : Filp) (buf : Option Bytes) (count : UInt64) (fPos : Int64) (env : WriteEnv)
    (rep : DevRep api kernel content lines working) :
    ∃ result, aesdWrite api kernel filp buf count fPos env = some result ∧
      WriteEffect api kernel content lines working filp buf count fPos env.krealloc
        (kreallocRefused api kernel filp buf count env) result := by
  obtain ⟨result, run, effect, _⟩ := aesd_write_outcome api kernel content lines working filp buf count fPos env rep
  exact ⟨result, run, effect⟩

end AesdChar
