import AesdChar.CommandLog
import AesdChar.Llseek
import AesdChar.SeekBounds

set_option autoImplicit false

namespace AesdChar

open CyclicQueue Framing HeapStore

inductive PendingRep (kernel : Kernel) : Option Bytes → Pending → Prop where
  | text (bytes : Bytes) : PendingRep kernel (some bytes) (.text bytes)
  | lost : PendingRep kernel none (.lost kernel.dev.workingEntry.size.toNat)

-- in_offs counts the completed commands modulo ten.
structure LogRep (api : KernelApi) (kernel : Kernel) (content : List AesdBufferEntry) (working : Option Bytes)
    (log : CommandLog) : Prop where
  device : DevRep api kernel content log.lines working
  pending : PendingRep kernel working log.pending
  number : kernel.dev.buffer.inOffs.toNat = log.completed.length % 10

def Logged (api : KernelApi) (kernel : Kernel) (log : CommandLog) : Prop :=
  ∃ content working, LogRep api kernel content working log

theorem logged_loaded (api : KernelApi) : Logged api loadedModule emptyLog :=
  ⟨[], some [], dev_rep_loaded api, .text [], rfl⟩

theorem pending_base (kernel : Kernel) (working : Option Bytes) (pending : Pending) (answer : Answer)
    (rep : PendingRep kernel working pending) : pending.base answer.stale = baseBytes kernel working answer := by
  cases rep with
  | text bytes => rfl
  | lost => rfl

theorem pending_dropped (api : KernelApi) (kernel : Kernel) (working : Option Bytes) (pending : Pending)
    (block : WorkingRep api kernel.heap kernel.dev.workingEntry working) (rep : PendingRep kernel working pending) :
    PendingRep (kernel.setWorking { kernel.dev.workingEntry with buffptr := nullPtr }) (afterRefusal working)
      pending.drop := by
  have length := base_length api kernel working ⟨none, fun _ => 0⟩ block
  cases rep with
  | text bytes =>
      by_cases empty : bytes = []
      · subst empty
        exact .text []
      · have lost : afterRefusal (some bytes) = none := by
          cases bytes with
          | nil => exact absurd rfl empty
          | cons head tail => rfl
        have size : bytes.length = kernel.dev.workingEntry.size.toNat := length
        rw [lost, Pending.drop, if_neg empty, size]
        exact .lost
  | lost => exact .lost

theorem newline_accepted (user : Bytes) (count : UInt64) :
    newLine ∈ accepted user count ↔ newLine ∈ userBytes user count := by
  constructor
  · intro found
    rw [← accepted_take] at found
    exact List.mem_of_mem_take found
  · intro present
    obtain ⟨body, line, _⟩ := accepted_line user count present
    simp [line]

theorem add_entry_in_offs (buffer next : AesdCircularBuffer) (entry : AesdBufferEntry) (handedBack : Ptr)
    (added : aesdCircularBufferAddEntry buffer entry = some (next, handedBack)) :
    next.inOffs = nextOffs buffer.inOffs := by
  unfold aesdCircularBufferAddEntry at added
  split at added
  · dsimp only at added
    repeat' split at added
    all_goals
      simp only [Option.some.injEq, Prod.mk.injEq] at added
      rw [← added.1]
  · cases added

theorem realloc_working_buffer (api : KernelApi) (kernel grown : Kernel) (count : UInt64) (answer : Answer)
    (ran : reallocWorkingEntry api kernel count answer = some grown) : grown.dev.buffer = kernel.dev.buffer := by
  unfold reallocWorkingEntry at ran
  dsimp only at ran
  split at ran
  · cases ran
  · cases Option.some.inj ran
    rfl

theorem append_working_dev (kernel done : Kernel) (writeBuf : Ptr) (count : UInt64)
    (ran : appendToWorkingEntry kernel writeBuf count = some done) : done.dev = kernel.dev := by
  unfold appendToWorkingEntry at ran
  dsimp only at ran
  split at ran
  · cases ran
  · obtain ⟨heap, _, rfl⟩ := Option.map_eq_some_iff.mp ran
    rfl

theorem free_evicted_dev (kernel freed : Kernel) (retBuf : Ptr) (ran : freeEvicted kernel retBuf = some freed) :
    freed.dev = kernel.dev := by
  unfold freeEvicted at ran
  split at ran
  · cases Option.some.inj ran
    rfl
  · obtain ⟨heap, _, rfl⟩ := Option.map_eq_some_iff.mp ran
    rfl

theorem kernel_free_dev (kernel freed : Kernel) (p : Ptr) (ran : kernel.free p = some freed) :
    freed.dev = kernel.dev := by
  obtain ⟨heap, _, rfl⟩ := Option.map_eq_some_iff.mp ran
  rfl

theorem write_locked_in_offs (api : KernelApi) (kernel next : Kernel) (writeBuf : Ptr) (count : UInt64) (found : Bool)
    (answer : Answer) (ran : writeLocked api kernel writeBuf count found answer = some (next, true)) :
    next.dev.buffer.inOffs = if found then nextOffs kernel.dev.buffer.inOffs else kernel.dev.buffer.inOffs := by
  simp only [writeLocked, bind, Option.bind_eq_some_iff] at ran
  obtain ⟨grown, reallocated, rest⟩ := ran
  have same := realloc_working_buffer api kernel grown count answer reallocated
  by_cases null : grown.dev.workingEntry.buffptr = nullPtr
  · simp [null] at rest
  · rw [if_neg null] at rest
    obtain ⟨done, appended, rest⟩ := Option.bind_eq_some_iff.mp rest
    have kept := append_working_dev grown done writeBuf count appended
    cases found with
    | false =>
        simp only [Bool.false_eq_true, if_false, pure, Option.some.injEq, Prod.mk.injEq] at rest
        rw [← rest.1]
        simp [growWorkingEntry, Kernel.setWorking, kept, same]
    | true =>
        simp only [if_true] at rest
        obtain ⟨⟨added, retBuf⟩, adding, rest⟩ := Option.bind_eq_some_iff.mp rest
        obtain ⟨freed, freeing, rest⟩ := Option.bind_eq_some_iff.mp rest
        simp only [pure, Option.some.injEq, Prod.mk.injEq, and_true] at rest
        obtain ⟨⟨buffer, handedBack⟩, entered, moved⟩ := Option.map_eq_some_iff.mp adding
        have stepped := add_entry_in_offs _ buffer _ handedBack entered
        simp only [Prod.mk.injEq] at moved
        have evicted := free_evicted_dev added freed retBuf freeing
        rw [← rest, if_pos rfl]
        simp only [resetWorkingEntry, Kernel.setWorking, evicted, ← moved.1]
        rw [stepped]
        simp [growWorkingEntry, Kernel.setWorking, kept, same]

theorem append_newline (log : CommandLog) (stale : Nat → UInt8) (user : Bytes) (count : UInt64) :
    log.append stale (accepted user count) =
      if newLine ∈
        userBytes user count then ⟨log.completed ++ [log.pending.base stale ++ accepted user count], .text []⟩
      else ⟨log.completed, .text (log.pending.base stale ++ accepted user count)⟩ := by
  simp only [CommandLog.append, newline_accepted]

theorem in_offs_next (buffer : AesdCircularBuffer) (count : Nat) (number : buffer.inOffs.toNat = count % 10) :
    (nextOffs buffer.inOffs).toNat = (count + 1) % 10 := by
  rw [next_offs_nat _ (by omega), number]
  omega

def grantsOf (api : KernelApi) (kernel : Kernel) (filp : Filp) : DriverCall → Grants
  | .write buf count env =>
      ⟨decide ((kmalloc api kernel.heap count env.kmalloc).2 ≠ nullPtr), !kreallocRefused api kernel filp buf count env,
        kernel.dev.workingEntry.buffptr⟩
  | _ => ⟨true, true, kernel.dev.workingEntry.buffptr⟩

-- What a call may leave: the outcome of the log, and a kernel that agrees with
-- it. A call that changes nothing in the kernel changes nothing in the log.
structure CallRefines (api : KernelApi) (kernel : Kernel) (log : CommandLog) (result : CallResult)
    (outcome : LogOutcome) :
    Prop where
  fPos : outcome.fPos = result.fPos
  reply : outcome.reply = ⟨result.ret, result.out⟩
  logged : Logged api result.kernel outcome.log
  silent : result.kernel = kernel → outcome.log = log

theorem working_rep_unique (api : KernelApi) (heap : Heap) (entry : AesdBufferEntry) (one other : Option Bytes)
    (first : WorkingRep api heap entry one) (second : WorkingRep api heap entry other) : one = other := by
  cases first with
  | empty reserved zero =>
      cases second with
      | empty => rfl
      | pending line block => exact absurd reserved (by simp [block.real])
      | lost gone claimed fits => exact absurd zero claimed
  | pending line block =>
      cases second with
      | empty reserved zero => exact absurd reserved (by simp [block.real])
      | pending again same => rw [Option.some.inj (block.live.symm.trans same.live)]
      | lost gone claimed fits => exact absurd gone (real_not_null _ block.real)
  | lost gone claimed fits =>
      cases second with
      | empty reserved zero => exact absurd zero claimed
      | pending line block => exact absurd gone (real_not_null _ block.real)
      | lost => rfl

theorem pending_rep_unique (kernel : Kernel) (working : Option Bytes) (one other : Pending)
    (first : PendingRep kernel working one) (second : PendingRep kernel working other) : one = other := by
  cases first with
  | text bytes => cases second; rfl
  | lost => cases second; rfl

theorem log_rep_silent (api : KernelApi) (kernel : Kernel) (content nextContent : List AesdBufferEntry)
    (working nextWorking : Option Bytes) (log next : CommandLog) (rep : LogRep api kernel content working log)
    (nextRep : LogRep api kernel nextContent nextWorking next)
    (same : next.completed = log.completed) : next = log := by
  have pending := working_rep_unique api _ _ _ _ rep.device.pending nextRep.device.pending
  rw [← pending] at nextRep
  have equal := pending_rep_unique kernel working _ _ rep.pending nextRep.pending
  cases log
  cases next
  exact congrArg₂ CommandLog.mk same equal.symm

theorem refines_early (api : KernelApi) (kernel : Kernel) (log : CommandLog) (fPos : Int64) (reply : CallReply)
    (logged : Logged api kernel log) :
    CallRefines api kernel log ⟨kernel, fPos, reply.ret, reply.out⟩ ⟨log, fPos, reply⟩ :=
  ⟨rfl, rfl, logged, fun _ => rfl⟩

theorem refines_refused (api : KernelApi) (kernel : Kernel) (content : List AesdBufferEntry) (working : Option Bytes)
    (log : CommandLog) (fPos : Int64) (rep : LogRep api kernel content working log) :
    CallRefines api kernel log ⟨kernel.setWorking { kernel.dev.workingEntry with buffptr := nullPtr },
      fPos, -eNoMem, []⟩
      ⟨{ log with pending := log.pending.drop }, fPos, -eNoMem, []⟩ := by
  have dropped : LogRep api (kernel.setWorking { kernel.dev.workingEntry with buffptr := nullPtr }) content
      (afterRefusal working) { log with pending := log.pending.drop } :=
    ⟨refused_rep api kernel content _ working rep.device,
      pending_dropped api kernel working _ rep.device.pending rep.pending,
      rep.number⟩
  refine ⟨rfl, rfl, ⟨content, _, dropped⟩, fun same => ?_⟩
  dsimp only at same
  rw [same] at dropped
  exact log_rep_silent api kernel content content working _ log _ rep dropped rfl

theorem refines_written (api : KernelApi) (kernel final : Kernel) (content nextContent : List AesdBufferEntry)
    (working : Option Bytes) (log : CommandLog) (user : Bytes) (count : UInt64) (fPos : Int64) (answer : Answer)
    (rep : LogRep api kernel content working log)
    (written : DevRep api final nextContent
      (if newLine ∈ userBytes user count then push 10 log.lines (baseBytes kernel working answer ++ accepted user count)
        else log.lines)
      (some (if newLine ∈ userBytes user count then [] else baseBytes kernel working answer ++ accepted user count)))
    (stepped : final.dev.buffer.inOffs =
      if newLine ∈ userBytes user count then nextOffs kernel.dev.buffer.inOffs else kernel.dev.buffer.inOffs) :
    CallRefines api kernel log ⟨final, fPos + count.toInt64, count.toInt64, []⟩
      ⟨log.append answer.stale (accepted user count), fPos + count.toInt64, count.toInt64, []⟩ := by
  have base := pending_base kernel working log.pending answer rep.pending
  refine ⟨rfl, rfl, ?_, fun same => ?_⟩
  · rw [append_newline, base]
    by_cases present : newLine ∈ userBytes user count
    · simp only [present, if_true] at written stepped ⊢
      refine ⟨nextContent, some [], ?_, .text [], ?_⟩
      · rw [CommandLog.lines, push_rtake] at written
        exact written
      · rw [stepped, List.length_append]
        exact in_offs_next _ _ rep.number
    · simp only [present, if_false] at written stepped ⊢
      exact ⟨nextContent, _, written, .text _, by rw [stepped]; exact rep.number⟩
  · dsimp only at same
    subst same
    by_cases present : newLine ∈ userBytes user count
    · have moved := congrArg UInt8.toNat stepped
      rw [if_pos present, in_offs_next _ _ rep.number, rep.number] at moved
      omega
    · rw [append_newline, base, if_neg present]
      simp only [present, if_false] at written
      exact log_rep_silent api final content nextContent working _ log _ rep ⟨written, .text _, rep.number⟩ rfl

theorem copy_from_user_faults (heap next : Heap) (w : Ptr) (user : Bytes) (count : UInt64) (ok copied : Bool)
    (ran : copyFromUser heap w user count ok = some (next, copied)) :
    copied = false ↔ count ≠ 0 ∧ ¬ (ok = true ∧ count.toNat ≤ user.length) := by
  unfold copyFromUser at ran
  by_cases zero : count = 0
  · rw [if_pos zero] at ran
    cases Option.some.inj ran
    simp [zero]
  · rw [if_neg zero] at ran
    by_cases success : ok = true ∧ count.toNat ≤ user.length
    · rw [if_pos success] at ran
      obtain ⟨_, _, same⟩ := Option.map_eq_some_iff.mp ran
      cases same
      simp [success]
    · rw [if_neg success] at ran
      cases Option.some.inj ran
      simp only [true_iff]
      exact ⟨zero, success⟩

theorem write_section_refines (api : KernelApi) (kernel : Kernel) (content : List AesdBufferEntry)
    (working : Option Bytes) (log : CommandLog) (filp : Filp) (user : Bytes) (count : UInt64) (env : WriteEnv)
    (heap copied : Heap) (w : Ptr) (rep : LogRep api kernel content working log) (opened : filp.privateData = true)
    (allocated : kmalloc api kernel.heap count env.kmalloc = (heap, w)) (held : w ≠ nullPtr)
    (fits : count.toNat ≤ api.kmallocMaxSize) (mapped : count.toNat ≤ user.length)
    (copying : copyFromUser heap w user count env.copyFromUser = some (copied, true))
    (call : CallBlock kernel (userBytes user count) copied w) (locked : env.lock = true) :
    ∃ result, aesdWrite api kernel filp (some user) count filp.fPos env = some result ∧
      CallRefines api kernel log result
        (log.write filp (some user) count env (grantsOf api kernel filp (.write (some user) count env))) := by
  have length : (userBytes user count).length = count.toNat := by simp [userBytes, mapped]
  have read := call_block_read kernel _ copied w call
  rw [length] at read
  have counted := bytes_up_to_new_line (userBytes user count) count length.symm
  have shorter := up_to_length newLine (userBytes user count)
  have found := memchr_found (userBytes user count)
  have buf := call_block_buf api kernel content log.lines working _ _ copied w rep.device call
    (accepted_take user count)
  have callRep := call_block_rep api kernel content log.lines working _ copied w rep.device call
  have ended : (memchr (userBytes user count) newLine).isSome = true → accepted user count ≠ [] := by
    intro present
    rw [found, decide_eq_true_iff] at present
    obtain ⟨body, line, _⟩ := accepted_line user count present
    simp [line]
  have refusedEq : kreallocRefused api kernel filp (some user) count env =
      decide (reallocated api ⟨copied, kernel.dev⟩ (bytesUpToNewLine (userBytes user count) count) env.krealloc =
        some nullPtr) := by
    simp [kreallocRefused, allocated, held, opened, copying, locked]
  have copies := mt (copy_from_user_faults heap copied w user count _ _ copying).mpr (by simp)
  have granted : (grantsOf api kernel filp (.write (some user) count env)).writeBuf = true := by
    simp [grantsOf, allocated, held]
  have line : (grantsOf api kernel filp (.write (some user) count env)).line =
      !decide (reallocated api ⟨copied, kernel.dev⟩ (bytesUpToNewLine (userBytes user count) count) env.krealloc =
        some nullPtr) := by
    rw [grantsOf, refusedEq]
  simp only [CommandLog.write, granted, opened, copies, locked, Bool.true_eq_false, if_false]
  rcases write_locked_effect api ⟨copied, kernel.dev⟩ content log.lines working w (accepted user count) _ _ env.krealloc
      callRep buf counted (by rw [accepted]; omega) ended with
    ⟨answered, run⟩ | ⟨q, next, nextContent, answered, notNull, run, result⟩
  · have freed := call_block_free (kernel.setWorking { kernel.dev.workingEntry with buffptr := nullPtr }) _ copied w
      (by cases call with
        | empty noBytes => exact .empty noBytes
        | block _ fresh someBytes => exact .block w fresh someBytes)
    simp only [Kernel.setWorking] at freed
    rw [line, answered, decide_eq_true rfl]
    refine ⟨_, ?_, refines_refused api kernel content working log filp.fPos rep⟩
    simp [aesdWrite, allocated, held, opened, copying, read, locked, run, Kernel.setWorking, freed]
  · have different : (some q : Option Ptr) ≠ some nullPtr := fun same => notNull (Option.some.inj same)
    obtain ⟨final, freed, finalRep⟩ := locked_free api _ next nextContent _ _ w buf.live result
    have stepped := write_locked_in_offs api _ next w _ _ env.krealloc run
    rw [← kernel_free_dev next final w freed] at stepped
    rw [line, answered, decide_eq_false different]
    rw [found] at finalRep stepped
    simp only [decide_eq_true_eq] at finalRep stepped
    refine ⟨_, ?_, refines_written api kernel final content nextContent working log user count
      filp.fPos env.krealloc rep finalRep stepped⟩
    simp [aesdWrite, allocated, held, opened, copying, read, locked, run, freed]

theorem aesd_write_refines (api : KernelApi) (kernel : Kernel) (content : List AesdBufferEntry) (working : Option Bytes)
    (log : CommandLog) (filp : Filp) (buf : Option Bytes) (count : UInt64) (env : WriteEnv)
    (rep : LogRep api kernel content working log) :
    ∃ result, aesdWrite api kernel filp buf count filp.fPos env = some result ∧
      CallRefines api kernel log result
        (log.write filp buf count env (grantsOf api kernel filp (.write buf count env))) := by
  have logged : Logged api kernel log := ⟨content, working, rep⟩
  cases buf with
  | none => exact ⟨_, rfl, refines_early api kernel log _ ⟨-eInval, []⟩ logged⟩
  | some user =>
      rcases kmalloc_call api kernel count env.kmalloc with allocated | ⟨heap, w, allocated, held, fits, call⟩
      · refine ⟨⟨kernel, filp.fPos, -eNoMem, []⟩, by simp [aesdWrite, allocated], ?_⟩
        simp only [CommandLog.write, grantsOf, allocated, ne_eq, not_true_eq_false, decide_false, if_true]
        exact refines_early api kernel log _ ⟨-eNoMem, []⟩ logged
      · have granted : (grantsOf api kernel filp (.write (some user) count env)).writeBuf = true := by
          simp [grantsOf, allocated, held]
        by_cases opened : filp.privateData = true
        · rcases copy_from_user_cases heap w user count env.copyFromUser with ⟨_, failed⟩ | ⟨_, mapped, copies⟩
          · have freed := call_block_free kernel _ heap w call
            refine ⟨⟨kernel, filp.fPos, -eFault, []⟩, by simp [aesdWrite, allocated, held, opened, failed, freed], ?_⟩
            have faults := (copy_from_user_faults heap heap w user count _ _ failed).mp rfl
            rw [CommandLog.write, if_neg (by simp [granted]), if_neg (by simp [opened]), if_pos faults]
            exact refines_early api kernel log _ ⟨-eFault, []⟩ logged
          · obtain ⟨copied, copying, copiedCall⟩ := call_block_copy kernel user count env.kmalloc heap w mapped call
            rw [← copies] at copying
            by_cases locked : env.lock = true
            · exact write_section_refines api kernel content working log filp user count env heap copied w
                rep opened allocated held fits mapped copying copiedCall locked
            · have unlocked : env.lock = false := by simpa using locked
              have read := call_block_read kernel _ copied w copiedCall
              have length : (userBytes user count).length = count.toNat := by simp [userBytes, mapped]
              rw [length] at read
              have freed := call_block_free kernel _ copied w copiedCall
              have copies := mt (copy_from_user_faults heap copied w user count _ _ copying).mpr (by simp)
              refine ⟨⟨kernel, filp.fPos, -eRestartSys, []⟩,
                by simp [aesdWrite, allocated, held, opened, copying, read, unlocked, freed], ?_⟩
              simp only [CommandLog.write, granted, opened, copies, unlocked, Bool.true_eq_false, if_false, if_true]
              exact refines_early api kernel log _ ⟨-eRestartSys, []⟩ logged
        · have unopened : filp.privateData = false := by simpa using opened
          refine ⟨⟨⟨heap, kernel.dev⟩, filp.fPos, -ePerm, []⟩, by simp [aesdWrite, allocated, held, unopened], ?_⟩
          simp only [CommandLog.write, granted, unopened, Bool.true_eq_false, if_false, if_true]
          have kept := call_block_rep api kernel content log.lines working _ heap w rep.device call
          refine ⟨rfl, rfl, ⟨content, working, kept, ?_, rep.number⟩, fun _ => rfl⟩
          have pending := rep.pending
          generalize log.pending = begun at pending ⊢
          cases pending with
          | text bytes => exact .text bytes
          | lost => exact .lost

theorem aesd_read_refines (api : KernelApi) (kernel : Kernel) (content : List AesdBufferEntry) (working : Option Bytes)
    (log : CommandLog) (filp : Filp) (buf : Ptr) (count : UInt64) (env : ReadEnv)
    (rep : LogRep api kernel content working log) :
    ∃ result, aesdRead kernel filp buf count filp.fPos env = some result ∧
      CallRefines api kernel log result (log.read filp buf count env) := by
  have logged : Logged api kernel log := ⟨content, working, rep⟩
  by_cases null : buf = nullPtr
  · refine ⟨_, by simp only [aesdRead, if_pos null]; rfl, ?_⟩
    rw [CommandLog.read, if_pos null]
    exact refines_early api kernel log _ ⟨-eInval, []⟩ logged
  · by_cases unopened : filp.privateData = false
    · refine ⟨_, by simp only [aesdRead, if_neg null, if_pos unopened]; rfl, ?_⟩
      rw [CommandLog.read, if_neg null, if_pos unopened]
      exact refines_early api kernel log _ ⟨-ePerm, []⟩ logged
    · by_cases interrupted : env.lock = false
      · refine ⟨_, by simp only [aesdRead, if_neg null, if_neg unopened, if_pos interrupted]; rfl, ?_⟩
        rw [CommandLog.read, if_neg null, if_neg unopened, if_pos interrupted]
        exact refines_early api kernel log _ ⟨-eRestartSys, []⟩ logged
      · obtain ⟨lock, copied⟩ := env
        have locked : lock = true := by simpa using interrupted
        subst locked
        refine ⟨_, aesd_read_open api kernel content log.lines working filp buf count filp.fPos copied rep.device null
          (by simpa using unopened), ?_⟩
        simp only [CommandLog.read, if_neg null, if_neg unopened, if_neg interrupted, position]
        by_cases fine : copyToUser copied (readBytes log.lines filp.fPos.toUInt64.toNat count.toNat) = true
        · simp only [fine, if_true]
          exact refines_early api kernel log _ ⟨_, _⟩ logged
        · simp only [fine]
          exact refines_early api kernel log _ ⟨-eFault, []⟩ logged

theorem aesd_llseek_refines (api : KernelApi) (kernel : Kernel) (content : List AesdBufferEntry)
    (working : Option Bytes) (log : CommandLog) (filp : Filp) (off : Int64) (whence : Int32) (lock : Bool)
    (rep : LogRep api kernel content working log) :
    CallRefines api kernel log (aesdLlseek api kernel filp off whence lock) (log.llseek api filp off whence lock) := by
  have logged : Logged api kernel log := ⟨content, working, rep⟩
  have counted : (bufferSize kernel.dev.buffer).toInt64 = byteCount log.lines.flatten := by
    rw [byteCount, ← buffer_size_content api kernel content _ working rep.device, UInt64.ofNat_toNat]
  unfold aesdLlseek CommandLog.llseek
  rw [counted]
  split
  · exact refines_early api kernel log _ ⟨-ePerm, []⟩ logged
  · split
    · exact refines_early api kernel log _ ⟨-eRestartSys, []⟩ logged
    · dsimp only
      split
      · exact refines_early api kernel log _ ⟨-eInval, []⟩ logged
      · exact refines_early api kernel log _ ⟨_, []⟩ logged

theorem log_rep_oldest (api : KernelApi) (kernel : Kernel) (content : List AesdBufferEntry) (working : Option Bytes)
    (log : CommandLog) (rep : LogRep api kernel content working log) :
    kernel.dev.buffer.outOffs.toNat = (log.completed.length - 10) % 10 := by
  have entering := rep.device.ring.inOffs
  have inside := rep.device.ring.window.inside
  have stored := rep.device.stored.length_eq
  have number := rep.number
  rw [CommandLog.lines, rtake_length] at stored
  by_cases few : log.completed.length < 10
  · have partly : kernel.dev.buffer.full = false := by
      have notTen : ¬ content.length = 10 := by omega
      simpa using mt rep.device.ring.full.mp notTen
    rw [rep.device.ring.unrotated partly, UInt8.toNat_zero]
    omega
  · omega

theorem lines_get (log : CommandLog) (index : Nat) :
    log.lines.getD index [] = log.completed.getD (log.completed.length - 10 + index) [] := by
  simp [CommandLog.lines, List.rtake, List.getD_eq_getElem?_getD, List.getElem?_drop]

theorem command_in_slot (api : KernelApi) (kernel : Kernel) (content : List AesdBufferEntry) (working : Option Bytes)
    (log : CommandLog) (rep : LogRep api kernel content working log) (slot : Nat) (bound : slot < 10) :
    log.lines.getD (commandInSlot kernel.dev.buffer slot) [] = log.slot slot := by
  have oldest := log_rep_oldest api kernel content working log rep
  rw [lines_get, commandInSlot, oldest]
  by_cases unused : log.completed.length ≤ slot
  · rw [slot_unused log slot bound unused, List.getD_eq_getElem?_getD, List.getElem?_eq_none (by omega)]
    rfl
  · have newest : (log.completed.length - 10 + (slot + 10 - (log.completed.length - 10) % 10) % 10) % 10 = slot := by
      omega
    rw [slot_latest log slot _ newest (by omega) (by omega)]

theorem slot_sizes_log (api : KernelApi) (kernel : Kernel) (content : List AesdBufferEntry) (working : Option Bytes)
    (log : CommandLog) (rep : LogRep api kernel content working log) (slot : Nat) (bound : slot < 10) :
    (slotSizes kernel.dev.buffer).getD slot 0 = (log.slot slot).length := by
  rw [slot_sizes_command api kernel content _ working rep.device slot bound,
    command_in_slot api kernel content working log rep slot bound]

theorem slot_bytes_log (api : KernelApi) (kernel : Kernel) (content : List AesdBufferEntry) (working : Option Bytes)
    (log : CommandLog) (rep : LogRep api kernel content working log) (slot : Nat) (bound : slot < 10) :
    entryBytes kernel.heap (slotAt kernel.dev.buffer slot) = some (log.slot slot) := by
  rw [slot_bytes_command api kernel content _ working rep.device slot bound,
    command_in_slot api kernel content working log rep slot bound]

theorem slot_start_sizes (api : KernelApi) (kernel : Kernel) (content : List AesdBufferEntry) (working : Option Bytes)
    (log : CommandLog) (rep : LogRep api kernel content working log) (count : Nat) (bound : count ≤ 10) :
    log.slotStart count = ((slotSizes kernel.dev.buffer).take count).sum := by
  induction count with
  | zero => rfl
  | succ count ih =>
      rw [Concat.sum_take_succ, ← ih (by omega), slot_sizes_log api kernel content working log rep count (by omega)]
      simp [CommandLog.slotStart, List.range_succ]

theorem entry_size_log (api : KernelApi) (kernel : Kernel) (content : List AesdBufferEntry) (working : Option Bytes)
    (log : CommandLog) (rep : LogRep api kernel content working log) (index : Nat) :
    (entrySize kernel.dev index).toNat = log.slotLength kernel.dev.workingEntry.buffptr index := by
  by_cases inside : index < 10
  · rw [entry_size_slot kernel.dev index inside, ← slot_sizes_get _ index inside,
      slot_sizes_log api kernel content working log rep index inside, CommandLog.slotLength, if_pos inside]
  · rw [entrySize, dif_neg inside, CommandLog.slotLength, if_neg inside]

theorem aesd_ioctl_refines (api : KernelApi) (kernel : Kernel) (content : List AesdBufferEntry) (working : Option Bytes)
    (log : CommandLog) (filp : Filp) (cmd : UInt32) (seekTo : AesdSeekto) (env : IoctlEnv)
    (rep : LogRep api kernel content working log) :
    CallRefines api kernel log (aesdIoctl kernel filp cmd seekTo env)
      (log.ioctl filp cmd seekTo env kernel.dev.workingEntry.buffptr) := by
  have logged : Logged api kernel log := ⟨content, working, rep⟩
  have size := entry_size_log api kernel content working log rep seekTo.writeCmd.toNat
  have guard : (entrySize kernel.dev seekTo.writeCmd.toNat ≤ seekTo.writeCmdOffset.toUInt64) ↔
      log.slotLength kernel.dev.workingEntry.buffptr seekTo.writeCmd.toNat ≤ seekTo.writeCmdOffset.toNat := by
    rw [UInt64.le_iff_toNat_le, size, UInt32.toNat_toUInt64]
  unfold aesdIoctl CommandLog.ioctl
  simp only [guard]
  split
  · exact refines_early api kernel log _ ⟨-ePerm, []⟩ logged
  · split
    · exact refines_early api kernel log _ ⟨-eNoTty, []⟩ logged
    · split
      · exact refines_early api kernel log _ ⟨-eFault, []⟩ logged
      · split
        · exact refines_early api kernel log _ ⟨-eRestartSys, []⟩ logged
        · split
          · exact refines_early api kernel log _ ⟨-eInval, []⟩ logged
          · rename_i refused
            have command : seekTo.writeCmd.toNat ≤ 10 := by
              by_contra beyond
              refine refused (Or.inl (UInt32.lt_iff_toNat_lt.mpr ?_))
              simp only [UInt32.reduceToNat]
              omega
            have offset : offsetOfSlot kernel.dev seekTo.writeCmd.toNat + seekTo.writeCmdOffset.toUInt64 =
                UInt64.ofNat (log.slotStart seekTo.writeCmd.toNat + seekTo.writeCmdOffset.toNat) := by
              rw [slot_start_sizes api kernel content working log rep _ command,
                ← (offset_of_slot_exact api kernel content _ working rep.device _ command).1, UInt64.ofNat_add,
                UInt64.ofNat_toNat, ← UInt32.toNat_toUInt64 seekTo.writeCmdOffset, UInt64.ofNat_toNat]
            rw [offset]
            exact refines_early api kernel log _ ⟨0, []⟩ logged

-- Every call does on the device what it does on the log.
theorem driver_call_refines (api : KernelApi) (kernel : Kernel) (log : CommandLog) (filp : Filp) (call : DriverCall)
    (logged : Logged api kernel log) :
    ∃ result, driverCall api kernel filp call = some result ∧
      CallRefines api kernel log result (log.call api filp (grantsOf api kernel filp call) call) := by
  obtain ⟨content, working, rep⟩ := logged
  cases call with
  | read buf count env => exact aesd_read_refines api kernel content working log filp buf count env rep
  | write buf count env => exact aesd_write_refines api kernel content working log filp buf count env rep
  | llseek off whence lock =>
      exact ⟨_, rfl, aesd_llseek_refines api kernel content working log filp off whence lock rep⟩
  | ioctl cmd seekTo env => exact ⟨_, rfl, aesd_ioctl_refines api kernel content working log filp cmd seekTo env rep⟩

theorem logged_retained (api : KernelApi) (kernel : Kernel) (log : CommandLog) (logged : Logged api kernel log) :
    retained kernel = some log.lines := by
  obtain ⟨content, working, rep⟩ := logged
  exact dev_rep_retained api kernel content _ working rep.device

theorem granted_fits (api : KernelApi) (kernel : Kernel) (filp : Filp) (user : Bytes) (count : UInt64) (env : WriteEnv)
    (granted : (grantsOf api kernel filp (.write (some user) count env)).writeBuf = true) :
    count.toNat ≤ api.kmallocMaxSize := by
  rcases kmalloc_call api kernel count env.kmalloc with refused | ⟨_, _, _, _, fits, _⟩
  · simp [grantsOf, refused] at granted
  · exact fits

theorem write_completed (api : KernelApi) (kernel : Kernel) (log : CommandLog) (filp : Filp) (user : Bytes)
    (count : UInt64) (env : WriteEnv) (result : CallResult) (refines : CallRefines api kernel log result
      (log.write filp (some user) count env (grantsOf api kernel filp (.write (some user) count env)))) :
    (log.write filp (some user) count env (grantsOf api kernel filp (.write (some user) count env))).log.completed =
      log.completed ++ completedBy ⟨kernel, filp, .write (some user) count env, result⟩ := by
  have fits := granted_fits api kernel filp user count env
  generalize grantsOf api kernel filp (.write (some user) count env) = grants at refines fits ⊢
  have reply := refines.reply
  have kept := logged_retained api result.kernel _ refines.logged
  rcases log_write_cases log filp user count env grants with ⟨negative, same⟩ | ⟨granted, written⟩
  · rw [reply] at negative
    rw [same, failed_completes_nothing ⟨kernel, filp, .write (some user) count env, result⟩ negative, List.append_nil]
  · rw [written] at reply kept ⊢
    have ret : count.toInt64 = result.ret := congrArg CallReply.ret reply
    have stored := count_nonnegative api count (fits granted)
    rw [append_newline] at kept ⊢
    by_cases present : newLine ∈ userBytes user count
    · rw [if_pos present] at kept ⊢
      simp only [completedBy, ← ret, present, stored, and_self, if_true, kept, Option.getD_some, CommandLog.lines,
        List.rtake_concat_succ, List.getLast?_concat, Option.toList_some]
    · rw [if_neg present]
      simp [completedBy, present]

theorem call_completed (api : KernelApi) (kernel : Kernel) (log : CommandLog) (filp : Filp) (call : DriverCall)
    (result : CallResult)
    (refines : CallRefines api kernel log result (log.call api filp (grantsOf api kernel filp call) call)) :
    (log.call api filp (grantsOf api kernel filp call) call).log.completed =
      log.completed ++ completedBy ⟨kernel, filp, call, result⟩ := by
  have quiet : ∀ outcome : LogOutcome, outcome.log = log → (∀ buf count env, call ≠ .write buf count env) →
      outcome.log.completed = log.completed ++ completedBy ⟨kernel, filp, call, result⟩ := by
    intro outcome same silent
    rw [same, silent_completes_nothing ⟨kernel, filp, call, result⟩ silent, List.append_nil]
  cases call with
  | read buf count env =>
      refine quiet _ ?_ (by simp)
      simp only [CommandLog.call, CommandLog.read]
      repeat' split
      all_goals rfl
  | write buf count env =>
      cases buf with
      | none => exact (List.append_nil _).symm
      | some user => exact write_completed api kernel log filp user count env result refines
  | llseek off whence lock =>
      refine quiet _ ?_ (by simp)
      simp only [CommandLog.call, CommandLog.llseek]
      repeat' split
      all_goals rfl
  | ioctl cmd seekTo env =>
      refine quiet _ ?_ (by simp)
      simp only [CommandLog.call, CommandLog.ioctl]
      repeat' split
      all_goals rfl

-- A run of the log that answers every call as the device did, given what the
-- allocator granted it there.
inductive LogRun (api : KernelApi) : List Event → CommandLog → Prop where
  | loaded : LogRun api [] emptyLog
  | called (events : List Event) (log : CommandLog) (kernel : Kernel) (filp : Filp) (call : DriverCall)
      (result : CallResult)
      (earlier : LogRun api events log)
      (fPos : (log.call api filp (grantsOf api kernel filp call) call).fPos = result.fPos)
      (reply : (log.call api filp (grantsOf api kernel filp call) call).reply = ⟨result.ret, result.out⟩) :
      LogRun api (events ++ [⟨kernel, filp, call, result⟩]) (log.call api filp (grantsOf api kernel filp call) call).log

theorem run_logged (api : KernelApi) (events : List Event) (kernel : Kernel) (run : Run api events kernel) :
    ∃ log, LogRun api events log ∧ log.completed = completedLines events ∧ Logged api kernel log := by
  induction run with
  | loaded => exact ⟨emptyLog, .loaded, rfl, logged_loaded api⟩
  | called events kernel filp call result earlier ran ih =>
      obtain ⟨log, logRun, completed, logged⟩ := ih
      obtain ⟨found, foundRan, refines⟩ := driver_call_refines api kernel log filp call logged
      cases Option.some.inj (ran.symm.trans foundRan)
      refine ⟨_, .called events log kernel filp call result logRun refines.fPos refines.reply, ?_, refines.logged⟩
      rw [call_completed api kernel log filp call result refines, completed]
      simp [completedLines]

theorem device_refines_log (api : KernelApi) (events : List Event) (kernel : Kernel) (run : Run api events kernel) :
    ∃ log, LogRun api events log ∧ log.completed = completedLines events ∧ retained kernel = some log.lines ∧
      kernel.dev.buffer.inOffs.toNat = log.completed.length % 10 ∧
      (∀ slot, slot < 10 → (slotAt kernel.dev.buffer slot).size.toNat = (log.slot slot).length ∧
        entryBytes kernel.heap (slotAt kernel.dev.buffer slot) = some (log.slot slot)) ∧
      ∀ filp call, ∃ result, driverCall api kernel filp call = some result ∧
        (log.call api filp (grantsOf api kernel filp call) call).fPos = result.fPos ∧
        (log.call api filp (grantsOf api kernel filp call) call).reply = ⟨result.ret, result.out⟩ ∧
        retained result.kernel = some (log.call api filp (grantsOf api kernel filp call) call).log.lines := by
  obtain ⟨log, logRun, completed, logged⟩ := run_logged api events kernel run
  have stored := logged_retained api kernel log logged
  obtain ⟨content, working, rep⟩ := logged
  refine ⟨log, logRun, completed, stored, rep.number, ?_, ?_⟩
  · intro slot bound
    refine ⟨?_, slot_bytes_log api kernel content working log rep slot bound⟩
    rw [← slot_sizes_get _ slot bound]
    exact slot_sizes_log api kernel content working log rep slot bound
  · intro filp call
    obtain ⟨result, ran, refines⟩ := driver_call_refines api kernel log filp call ⟨content, working, rep⟩
    exact ⟨result, ran, refines.fPos, refines.reply, logged_retained api result.kernel _ refines.logged⟩

theorem device_refines_log_rotated :
    ∃ events kernel log, Run stockKernel events kernel ∧ LogRun stockKernel events log ∧
      kernel.dev.buffer.inOffs = 1 ∧ log.completed.length % 10 = 1 ∧
      log.slot 0 = [65, 65, 65, 10] ∧ entryBytes kernel.heap (slotAt kernel.dev.buffer 0) = some (log.slot 0) ∧
      log.slot 1 = [49, 10] ∧ entryBytes kernel.heap (slotAt kernel.dev.buffer 1) = some (log.slot 1) := by
  obtain ⟨events, kernel, ran, run⟩ := sample_run rotatedCalls (by decide)
  obtain ⟨log, logRun, _, _, number, slots, _⟩ := device_refines_log stockKernel events kernel run
  have value : (runCalls stockKernel loadedModule rotatedCalls).map (fun final =>
      (final.2.dev.buffer.inOffs, entryBytes final.2.heap (slotAt final.2.dev.buffer 0),
        entryBytes final.2.heap (slotAt final.2.dev.buffer 1))) = some (1, some [65, 65, 65, 10], some [49, 10]) := by
      decide
  rw [ran, Option.map_some, Option.some.injEq, Prod.mk.injEq, Prod.mk.injEq] at value
  obtain ⟨entering, first, second⟩ := value
  have inFirst := (slots 0 (by decide)).2
  have inSecond := (slots 1 (by decide)).2
  rw [entering] at number
  exact ⟨events, kernel, log, run, logRun, entering, number.symm, Option.some.inj (inFirst.symm.trans first), inFirst,
    Option.some.inj (inSecond.symm.trans second), inSecond⟩

end AesdChar
