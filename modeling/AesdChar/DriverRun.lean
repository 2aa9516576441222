import AesdChar.ReadSpec
import AesdChar.WriteRun

set_option autoImplicit false

namespace AesdChar

open CyclicQueue Framing HeapStore

theorem aesd_read_effect (api : KernelApi) (kernel : Kernel) (content : List AesdBufferEntry) (lines : List Bytes)
    (working : Option Bytes) (filp : Filp) (buf : Ptr) (count : UInt64) (fPos : Int64) (env : ReadEnv)
    (rep : DevRep api kernel content lines working) :
    ∃ result, aesdRead kernel filp buf count fPos env = some result ∧ result.kernel = kernel ∧
      result.out ⊆ lines.flatten := by
  have silent : [] ⊆ lines.flatten := List.nil_subset _
  by_cases given : buf = nullPtr
  · exact ⟨⟨kernel, fPos, -eInval, []⟩, by simp [aesdRead, given], rfl, silent⟩
  · by_cases unopened : filp.privateData = false
    · exact ⟨⟨kernel, fPos, -ePerm, []⟩, by simp [aesdRead, given, unopened], rfl, silent⟩
    · by_cases interrupted : env.lock = false
      · exact ⟨⟨kernel, fPos, -eRestartSys, []⟩, by simp [aesdRead, given, unopened, interrupted], rfl, silent⟩
      · have locked : env = ⟨true, env.copyToUser⟩ := by
          cases env
          simpa using interrupted
        have stored : readBytes lines fPos.toUInt64.toNat count.toNat ⊆ lines.flatten := by
          rw [read_bytes_content]
          exact fun _ member => List.mem_of_mem_drop (List.mem_of_mem_take member)
        rw [locked, aesd_read_open api kernel content lines working filp buf count fPos _ rep given
          (by simpa using unopened)]
        refine ⟨_, rfl, ?_, ?_⟩
        · split <;> rfl
        · split
          · exact stored
          · exact silent

theorem aesd_llseek_kernel (api : KernelApi) (kernel : Kernel) (filp : Filp) (off : Int64) (whence : Int32)
    (lock : Bool) : (aesdLlseek api kernel filp off whence lock).kernel = kernel := by
  unfold aesdLlseek
  split
  · rfl
  · split
    · rfl
    · dsimp only
      split <;> rfl

theorem aesd_ioctl_kernel (kernel : Kernel) (filp : Filp) (cmd : UInt32) (seekTo : AesdSeekto) (env : IoctlEnv) :
    (aesdIoctl kernel filp cmd seekTo env).kernel = kernel := by
  unfold aesdIoctl
  repeat' split
  all_goals rfl

inductive CallEffect (api : KernelApi) (kernel : Kernel) (content : List AesdBufferEntry) (lines : List Bytes)
    (working : Option Bytes) (filp : Filp) : DriverCall → CallResult → Prop where
  | write (buf : Option Bytes) (count : UInt64) (env : WriteEnv) (result : CallResult)
      (effect : WriteEffect api kernel content lines working filp buf count filp.fPos env.krealloc
        (kreallocRefused api kernel filp buf count env) result) :
      CallEffect api kernel content lines working filp (.write buf count env) result
  | other (call : DriverCall) (result : CallResult) (silent : ∀ buf count env, call ≠ .write buf count env)
      (same : result.kernel = kernel) : CallEffect api kernel content lines working filp call result

theorem driver_call_effect (api : KernelApi) (kernel : Kernel) (content : List AesdBufferEntry) (lines : List Bytes)
    (working : Option Bytes) (filp : Filp) (call : DriverCall) (rep : DevRep api kernel content lines working) :
    ∃ result, driverCall api kernel filp call = some result ∧
      CallEffect api kernel content lines working filp call result := by
  cases call with
  | read buf count env =>
      obtain ⟨result, ran, same, _⟩ :=
        aesd_read_effect api kernel content lines working filp buf count filp.fPos env rep
      exact ⟨result, ran, .other _ result (by simp) same⟩
  | write buf count env =>
      obtain ⟨result, ran, effect⟩ :=
        aesd_write_effect api kernel content lines working filp buf count filp.fPos env rep
      exact ⟨result, ran, .write buf count env result effect⟩
  | llseek off whence lock =>
      exact ⟨_, rfl, .other _ _ (by simp) (aesd_llseek_kernel api kernel filp off whence lock)⟩
  | ioctl cmd seekTo env => exact ⟨_, rfl, .other _ _ (by simp) (aesd_ioctl_kernel kernel filp cmd seekTo env)⟩

structure Event where
  kernel : Kernel
  filp : Filp
  call : DriverCall
  result : CallResult

inductive Run (api : KernelApi) : List Event → Kernel → Prop where
  | loaded : Run api [] loadedModule
  | called (events : List Event) (kernel : Kernel) (filp : Filp) (call : DriverCall) (result : CallResult)
      (earlier : Run api events kernel) (ran : driverCall api kernel filp call = some result) :
      Run api (events ++ [⟨kernel, filp, call, result⟩]) result.kernel

def completedBy (event : Event) : List Bytes :=
  match event.call with
  | .write (some user) count _ =>
      if 0 ≤ event.result.ret ∧ newLine ∈ userBytes user count then
        ((retained event.result.kernel).getD []).getLast?.toList
      else []
  | _ => []

def completedLines (events : List Event) : List Bytes := events.flatMap completedBy

theorem failed_completes_nothing (event : Event) (negative : event.result.ret < 0) : completedBy event = [] := by
  unfold completedBy
  split
  · rw [if_neg fun done => Int64.not_lt.mpr done.1 negative]
  · rfl

theorem silent_completes_nothing (event : Event) (silent : ∀ buf count env, event.call ≠ .write buf count env) :
    completedBy event = [] := by
  unfold completedBy
  split
  · rename_i write
    exact absurd write (silent _ _ _)
  · rfl

theorem count_nonnegative (api : KernelApi) (count : UInt64) (fits : count.toNat ≤ api.kmallocMaxSize) :
    0 ≤ count.toInt64 := Int64.not_lt.mp (count_not_negative api count fits)

-- What a refused krealloc leaves pending: it drops the block, not the size.
def afterRefusal : Option Bytes → Option Bytes
  | some [] => some []
  | _ => none

theorem refused_rep (api : KernelApi) (kernel : Kernel) (content : List AesdBufferEntry) (lines : List Bytes)
    (working : Option Bytes) (rep : DevRep api kernel content lines working) :
    DevRep api (kernel.setWorking { kernel.dev.workingEntry with buffptr := nullPtr }) content lines
      (afterRefusal working) := by
  refine ⟨rep.ring, rep.stored, ?_, rep.distinct, ?_⟩
  · have pending := rep.pending
    simp only [Kernel.setWorking]
    generalize kernel.dev.workingEntry = entry at pending ⊢
    cases pending with
    | empty reserved zero => exact .empty null_reserved zero
    | pending line block =>
        have claimed : entry.size ≠ 0 := by
          intro zero
          have size := block.size
          rw [zero] at size
          exact block.nonempty (List.eq_nil_of_length_eq_zero size.symm)
        have fits : entry.size.toNat ≤ api.kmallocMaxSize := by
          rw [block.size]
          exact block.fits
        cases line with
        | nil => exact absurd rfl block.nonempty
        | cons head tail => exact .lost rfl claimed fits
    | lost gone claimed fits => exact .lost rfl claimed fits
  · intro entry member same
    obtain ⟨line, _, block⟩ := stored_member api kernel.heap content lines rep.stored entry member
    have real := block.real
    rw [same] at real
    exact absurd null_reserved (Bool.eq_false_iff.mp real)

theorem count_exact (api : KernelApi) (count : UInt64) (fits : count.toNat ≤ api.kmallocMaxSize) :
    count.toInt64.toInt.toNat = count.toNat := by
  have addressable := api.addressable
  rw [word_to_int count (by omega)]
  rfl

theorem completed_by_line (api : KernelApi) (kernel next : Kernel) (content : List AesdBufferEntry) (lines : List Bytes)
    (line user : Bytes) (working : Option Bytes) (filp : Filp) (count : UInt64) (env : WriteEnv) (fPos : Int64)
    (fits : count.toNat ≤ api.kmallocMaxSize) (present : newLine ∈ userBytes user count)
    (rep : DevRep api next content (push 10 lines line) working) :
    completedBy ⟨kernel, filp, .write (some user) count env, ⟨next, fPos, count.toInt64, []⟩⟩ = [line] := by
  simp only [completedBy, present, and_true, count_nonnegative api count fits, if_true,
    dev_rep_retained api next content _ _ rep, Option.getD_some, push_last 10 lines line (by decide),
      Option.toList_some]

theorem write_appends (api : KernelApi) (kernel : Kernel) (content : List AesdBufferEntry) (completed : List Bytes)
    (working : Option Bytes) (filp : Filp) (buf : Option Bytes) (count : UInt64) (env : WriteEnv) (refused : Bool)
    (result : CallResult) (success : 0 ≤ result.ret)
    (effect : WriteEffect api kernel content (completed.rtake 10) working filp buf count filp.fPos env.krealloc refused
      result) :
    ∃ user, buf = some user ∧ refused = false ∧ count.toNat ≤ user.length ∧ result.ret.toInt.toNat = count.toNat ∧
      result.fPos = filp.fPos + result.ret ∧ ∃ nextContent pending,
        DevRep api result.kernel nextContent
          ((completed ++ completedBy ⟨kernel, filp, .write buf count env, result⟩).rtake 10) (some pending) ∧
        (completed ++ completedBy ⟨kernel, filp, .write buf count env, result⟩).flatten ++ pending =
          completed.flatten ++ (baseBytes kernel working env.krealloc ++ accepted user count) := by
  cases effect with
  | rejected ret negative => exact absurd negative (Int64.not_lt.mpr success)
  | leaked heap unopened kept => exact absurd success (by decide : ¬ 0 ≤ -ePerm)
  | refused => exact absurd success (by decide : ¬ 0 ≤ -eNoMem)
  | kept user next nextContent given mapped fits absent nextRep =>
      subst given
      refine ⟨user, rfl, rfl, mapped, count_exact api count fits, rfl, nextContent,
        baseBytes kernel working env.krealloc ++ accepted user count, ?_, ?_⟩
      · simp only [completedBy, absent, and_false, if_false, List.append_nil]
        exact nextRep
      · simp only [completedBy, absent, and_false, if_false, List.append_nil]
  | completed user next nextContent given mapped fits present nextRep =>
      subst given
      have line :=
        completed_by_line api kernel next nextContent _ _ user _ filp count env (filp.fPos + count.toInt64) fits
        present nextRep
      refine ⟨user, rfl, rfl, mapped, count_exact api count fits, rfl, nextContent, [], ?_, ?_⟩
      · rw [line, ← push_rtake]
        exact nextRep
      · rw [line, List.flatten_append, List.flatten_singleton, List.append_nil]

theorem write_fails (api : KernelApi) (kernel : Kernel) (content : List AesdBufferEntry) (lines : List Bytes)
    (working : Option Bytes) (filp : Filp) (buf : Option Bytes) (count : UInt64) (fPos : Int64) (answer : Answer)
    (refused : Bool) (result : CallResult) (failure : ¬ 0 ≤ result.ret) (rep : DevRep api kernel content lines working)
    (effect : WriteEffect api kernel content lines working filp buf count fPos answer refused result) :
    result.fPos = fPos ∧
    ((refused = false ∧ (result.ret ≠ -ePerm → result.kernel = kernel) ∧
      DevRep api result.kernel content lines working) ∨
      (refused = true ∧
        result.kernel = kernel.setWorking { kernel.dev.workingEntry with buffptr := nullPtr } ∧
        DevRep api result.kernel content lines (afterRefusal working))) := by
  cases effect with
  | rejected ret negative => exact ⟨rfl, Or.inl ⟨rfl, fun _ => rfl, rep⟩⟩
  | leaked heap unopened kept => exact ⟨rfl, Or.inl ⟨rfl, fun listed => absurd rfl listed, kept⟩⟩
  | refused => exact ⟨rfl, Or.inr ⟨rfl, rfl, refused_rep api kernel content lines working rep⟩⟩
  | kept user next nextContent given mapped fits absent nextRep =>
      exact absurd (count_nonnegative api count fits) failure
  | completed user next nextContent given mapped fits present nextRep =>
      exact absurd (count_nonnegative api count fits) failure

theorem write_completes (api : KernelApi) (kernel : Kernel) (content : List AesdBufferEntry) (completed : List Bytes)
    (working : Option Bytes) (filp : Filp) (buf : Option Bytes) (count : UInt64) (env : WriteEnv) (refused : Bool)
    (result : CallResult) (rep : DevRep api kernel content (completed.rtake 10) working)
    (effect : WriteEffect api kernel content (completed.rtake 10) working filp buf count filp.fPos env.krealloc refused
      result) :
    ∃ nextContent nextWorking, DevRep api result.kernel nextContent
      ((completed ++ completedBy ⟨kernel, filp, .write buf count env, result⟩).rtake 10) nextWorking := by
  by_cases success : 0 ≤ result.ret
  · obtain ⟨_, _, _, _, _, _, nextContent, pending, nextRep, _⟩ :=
      write_appends api kernel content completed working filp buf count env refused result success effect
    exact ⟨nextContent, some pending, nextRep⟩
  · rw [failed_completes_nothing ⟨kernel, filp, .write buf count env, result⟩ (Int64.not_le.mp success),
      List.append_nil]
    obtain ⟨_, ⟨_, _, nextRep⟩ | ⟨_, _, nextRep⟩⟩ :=
      write_fails api kernel content _ working filp buf count filp.fPos env.krealloc refused result success rep effect
    · exact ⟨content, working, nextRep⟩
    · exact ⟨content, afterRefusal working, nextRep⟩

theorem call_completes (api : KernelApi) (kernel : Kernel) (content : List AesdBufferEntry) (completed : List Bytes)
    (working : Option Bytes) (filp : Filp) (call : DriverCall) (result : CallResult)
    (rep : DevRep api kernel content (completed.rtake 10) working)
    (effect : CallEffect api kernel content (completed.rtake 10) working filp call result) :
    ∃ nextContent nextWorking,
      DevRep api result.kernel nextContent ((completed ++ completedBy ⟨kernel, filp, call, result⟩).rtake 10)
        nextWorking := by
  cases effect with
  | write buf count env _ effect =>
      exact write_completes api kernel content completed working filp buf count env _ result rep effect
  | other _ _ silent same =>
      rw [same, silent_completes_nothing ⟨kernel, filp, call, result⟩ silent, List.append_nil]
      exact ⟨content, working, rep⟩

theorem run_rep (api : KernelApi) (events : List Event) (kernel : Kernel) (run : Run api events kernel) :
    ∃ content working, DevRep api kernel content ((completedLines events).rtake 10) working := by
  induction run with
  | loaded => exact ⟨[], some [], dev_rep_loaded api⟩
  | called events kernel filp call result earlier ran ih =>
      obtain ⟨content, working, rep⟩ := ih
      obtain ⟨found, foundRan, effect⟩ := driver_call_effect api kernel content _ working filp call rep
      cases Option.some.inj (ran.symm.trans foundRan)
      simpa [completedLines] using call_completes api kernel content _ working filp call result rep effect

def contributionBy (event : Event) : Bytes :=
  match event.call with
  | .write buf count env => contribution ⟨event.filp, buf, count, env⟩ event.result.ret
  | _ => []

def streamOf (events : List Event) : Bytes := events.flatMap contributionBy

-- krealloc returns NULL while a line is pending, and its block is forgotten.
structure DropsPending (api : KernelApi) (kernel : Kernel) (filp : Filp) (buf : Option Bytes) (count : UInt64)
    (env : WriteEnv) : Prop where
  refused : kreallocRefused api kernel filp buf count env = true
  held : kernel.dev.workingEntry.buffptr ≠ nullPtr
  claimed : kernel.dev.workingEntry.size ≠ 0

def EventDropsPending (api : KernelApi) (event : Event) : Prop :=
  match event.call with
  | .write buf count env => DropsPending api event.kernel event.filp buf count env
  | _ => False

theorem refused_harmless (api : KernelApi) (kernel : Kernel) (bytes : Bytes) (filp : Filp) (buf : Option Bytes)
    (count : UInt64) (env : WriteEnv) (pending : WorkingRep api kernel.heap kernel.dev.workingEntry (some bytes))
    (refused : kreallocRefused api kernel filp buf count env = true)
    (kept : ¬ DropsPending api kernel filp buf count env) :
    bytes = [] := by
  have length := base_length api kernel (some bytes) env.krealloc pending
  generalize entryEq : kernel.dev.workingEntry = entry at pending length
  cases pending with
  | empty reserved zero => rfl
  | pending line block =>
      refine absurd ⟨refused, ?_, ?_⟩ kept
      · rw [entryEq]
        exact real_not_null _ block.real
      · intro zero
        rw [entryEq] at zero
        rw [zero] at length
        exact block.nonempty (List.eq_nil_of_length_eq_zero length)

theorem write_keeps_stream (api : KernelApi) (kernel : Kernel) (content : List AesdBufferEntry) (completed : List Bytes)
    (bytes : Bytes) (filp : Filp) (buf : Option Bytes) (count : UInt64) (env : WriteEnv) (result : CallResult)
    (rep : DevRep api kernel content (completed.rtake 10) (some bytes))
    (kept : ¬ DropsPending api kernel filp buf count env)
    (effect : WriteEffect api kernel content (completed.rtake 10) (some bytes) filp buf count filp.fPos env.krealloc
      (kreallocRefused api kernel filp buf count env) result) :
    ∃ nextContent pending,
      DevRep api result.kernel nextContent
        ((completed ++ completedBy ⟨kernel, filp, .write buf count env, result⟩).rtake 10) (some pending) ∧
      (completed ++ completedBy ⟨kernel, filp, .write buf count env, result⟩).flatten ++ pending =
        completed.flatten ++ bytes ++ contributionBy ⟨kernel, filp, .write buf count env, result⟩ := by
  by_cases success : 0 ≤ result.ret
  · obtain ⟨user, given, _, _, _, _, nextContent, pending, nextRep, text⟩ :=
      write_appends api kernel content completed (some bytes) filp buf count env _ result success effect
    refine ⟨nextContent, pending, nextRep, ?_⟩
    rw [text]
    simp [contributionBy, contribution, Int64.not_lt.mpr success, given, baseBytes]
  · have negative := Int64.not_le.mp success
    have nothing : contributionBy ⟨kernel, filp, .write buf count env, result⟩ = [] := by
      simp [contributionBy, contribution, negative]
    rw [failed_completes_nothing ⟨kernel, filp, .write buf count env, result⟩ negative, nothing, List.append_nil,
      List.append_nil]
    obtain ⟨_, ⟨_, _, nextRep⟩ | ⟨refused, _, nextRep⟩⟩ :=
      write_fails api kernel content _ (some bytes) filp buf count filp.fPos env.krealloc _ result success rep effect
    · exact ⟨content, bytes, nextRep, rfl⟩
    · have empty := refused_harmless api kernel bytes filp buf count env rep.pending refused kept
      subst empty
      exact ⟨content, [], nextRep, rfl⟩

theorem call_keeps_stream (api : KernelApi) (kernel : Kernel) (content : List AesdBufferEntry) (completed : List Bytes)
    (bytes : Bytes) (filp : Filp) (call : DriverCall) (result : CallResult)
    (rep : DevRep api kernel content (completed.rtake 10) (some bytes))
    (kept : ¬ EventDropsPending api ⟨kernel, filp, call, result⟩)
    (effect : CallEffect api kernel content (completed.rtake 10) (some bytes) filp call result) :
    ∃ nextContent pending,
      DevRep api result.kernel nextContent ((completed ++ completedBy ⟨kernel, filp, call, result⟩).rtake 10)
        (some pending) ∧
      (completed ++ completedBy ⟨kernel, filp, call, result⟩).flatten ++ pending =
        completed.flatten ++ bytes ++ contributionBy ⟨kernel, filp, call, result⟩ := by
  cases effect with
  | write buf count env _ effect =>
      exact write_keeps_stream api kernel content completed bytes filp buf count env result rep kept effect
  | other _ _ silent same =>
      have nothing : contributionBy ⟨kernel, filp, call, result⟩ = [] := by
        unfold contributionBy
        split
        · rename_i write
          exact absurd write (silent _ _ _)
        · rfl
      rw [same, silent_completes_nothing ⟨kernel, filp, call, result⟩ silent, nothing, List.append_nil, List.append_nil]
      exact ⟨content, bytes, rep, rfl⟩

theorem run_keeps_stream (api : KernelApi) (events : List Event) (kernel : Kernel) (run : Run api events kernel)
    (kept : ∀ event ∈ events, ¬ EventDropsPending api event) :
    ∃ content bytes, DevRep api kernel content ((completedLines events).rtake 10) (some bytes) ∧
      (completedLines events).flatten ++ bytes = streamOf events := by
  induction run with
  | loaded => exact ⟨[], [], dev_rep_loaded api, rfl⟩
  | called events kernel filp call result earlier ran ih =>
      obtain ⟨content, bytes, rep, text⟩ := ih fun event member => kept event (List.mem_append_left _ member)
      obtain ⟨found, foundRan, effect⟩ := driver_call_effect api kernel content _ _ filp call rep
      cases Option.some.inj (ran.symm.trans foundRan)
      obtain ⟨nextContent, pending, nextRep, nextText⟩ :=
        call_keeps_stream api kernel content _ bytes filp call result rep (kept _ (by simp)) effect
      rw [text] at nextText
      exact ⟨nextContent, pending, by simpa [completedLines] using nextRep,
        by simpa [completedLines, streamOf] using nextText⟩

def runCalls (api : KernelApi) : Kernel → List (Filp × DriverCall) → Option (List Event × Kernel)
  | kernel, [] => some ([], kernel)
  | kernel, (filp, call) :: rest =>
      match driverCall api kernel filp call with
      | none => none
      | some result =>
          match runCalls api result.kernel rest with
          | none => none
          | some (later, final) => some (⟨kernel, filp, call, result⟩ :: later, final)

theorem run_calls_reached (api : KernelApi) (calls : List (Filp × DriverCall)) (events more : List Event)
    (kernel final : Kernel) (run : Run api events kernel) (ran : runCalls api kernel calls = some (more, final)) :
    Run api (events ++ more) final := by
  induction calls generalizing kernel events more with
  | nil =>
      cases Option.some.inj ran
      simpa using run
  | cons head rest ih =>
      obtain ⟨filp, call⟩ := head
      simp only [runCalls] at ran
      split at ran
      · cases ran
      · rename_i result called
        split at ran
        · cases ran
        · rename_i later last continued
          cases Option.some.inj ran
          have next := ih _ later result.kernel (.called events kernel filp call result run called) continued
          simpa using next

def WriteCall.toDriver (call : WriteCall) : Filp × DriverCall := (call.filp, .write call.buf call.count call.env)

def fullRing : List (Filp × DriverCall) :=
  (List.range 10).map fun i => (sampleWrite [UInt8.ofNat (48 + i), 10] 4096 (UInt64.ofNat (8192 * (i + 1)))).toDriver

theorem sample_run (calls : List (Filp × DriverCall)) (ran : (runCalls stockKernel loadedModule calls).isSome = true) :
    ∃ events kernel, runCalls stockKernel loadedModule calls = some (events, kernel) ∧
      Run stockKernel events kernel := by
  obtain ⟨⟨events, kernel⟩, ran⟩ := Option.isSome_iff_exists.mp ran
  exact ⟨events, kernel, ran,
    by simpa using run_calls_reached stockKernel calls [] events loadedModule kernel .loaded ran⟩

theorem run_call_safe (api : KernelApi) (events : List Event) (kernel : Kernel) (filp : Filp) (call : DriverCall)
    (run : Run api events kernel) : ∃ result, driverCall api kernel filp call = some result := by
  obtain ⟨content, working, rep⟩ := run_rep api events kernel run
  obtain ⟨result, ran, _⟩ := driver_call_effect api kernel content _ working filp call rep
  exact ⟨result, ran⟩

end AesdChar
