import AesdChar.Library.LockProgress
import AesdChar.Serialisable

set_option autoImplicit false

namespace AesdChar

open HeapStore LockProgram

def grantedAddresses : DriverCall → List Ptr
  | .write _ _ env => env.kmalloc.address.toList ++ env.krealloc.address.toList
  | _ => []

-- The allocator has answered a call with a block that is in use.
def GrantsUsedBlock (call : DriverCall) (kernel : Kernel) : Prop :=
  ∃ p ∈ grantedAddresses call, zeroOrNullPtr p = false ∧ Live kernel.heap p

theorem grant_refused (heap : Heap) (p : Ptr) (taken : (zeroOrNullPtr p || (heap p).isNone) = false) :
    zeroOrNullPtr p = false ∧ Live heap p := by
  simp only [Bool.or_eq_false_iff, Option.isNone_eq_false_iff] at taken
  exact ⟨taken.1, Option.isSome_iff_exists.mp taken.2⟩

theorem kmalloc_excused (api : KernelApi) (buf : Option Bytes) (count : UInt64) (env : WriteEnv) (kernel : Kernel)
    (refused : (kmallocWriteBuf api count env.kmalloc).allowed kernel = false) :
    GrantsUsedBlock (.write buf count env) kernel := by
  simp only [kmallocWriteBuf, grantable, Bool.or_eq_false_iff] at refused
  cases address : env.kmalloc.address with
  | none => simp [address] at refused
  | some p =>
      rw [address] at refused
      exact ⟨p, by simp [grantedAddresses, address], grant_refused kernel.heap p refused.2⟩

theorem krealloc_excused (api : KernelApi) (buf : Option Bytes) (count length : UInt64) (env : WriteEnv)
    (kernel : Kernel) (refused : (kreallocWorking api length env.krealloc).allowed kernel = false) :
    GrantsUsedBlock (.write buf count env) kernel := by
  simp only [kreallocWorking, regrantable] at refused
  cases address : env.krealloc.address with
  | none => simp [address] at refused
  | some p =>
      rw [address, Option.all_some, Bool.or_assoc, Bool.or_eq_false_iff] at refused
      exact ⟨p, by simp [grantedAddresses, address], grant_refused kernel.heap p refused.2⟩

section

variable {τ : Type} {excuse : Kernel → Prop}

theorem excused_plain (statement : DriverStatement τ) (next : τ → DriverCode)
    (always : ∀ kernel, statement.allowed kernel = true)
    (rest : ∀ value, Excused excuse (next value)) : Excused excuse (.step statement next) :=
  ⟨fun kernel refused => absurd ((always kernel).symm.trans refused) (by simp), rest⟩

theorem add_sizes_excused (next : UInt64 → DriverCode) (rest : ∀ size, Excused excuse (next size)) (slots : List Nat)
    (size : UInt64) : Excused excuse (addSizes next slots size) := by
  induction slots generalizing size with
  | nil => exact rest size
  | cons slot slots ih => exact excused_plain _ _ (fun _ => rfl) fun entrySize => ih (size + entrySize)

theorem write_done_excused (writeBuf : Ptr) (count : UInt64) : Excused excuse (writeDone writeBuf count) :=
  excused_plain _ _ (fun _ => rfl) fun _ => excused_plain _ _ (fun _ => rfl) fun _ => trivial

theorem complete_line_excused (next : DriverCode) (rest : Excused excuse next) :
    Excused excuse (completeLine next) := by
  have reset : Excused excuse (resetWorking next) :=
    excused_plain _ _ (fun _ => rfl) fun _ => excused_plain _ _ (fun _ => rfl) fun _ => rest
  refine excused_plain _ _ (fun _ => rfl) fun retBuf => ?_
  split
  · exact reset
  · exact excused_plain _ _ (fun _ => rfl) fun _ => reset

end

theorem read_excused (buf : Ptr) (count : UInt64) (env : ReadEnv) :
    Excused (GrantsUsedBlock (.read buf count env)) (aesdReadCode buf count env) := by
  unfold aesdReadCode
  split
  · exact trivial
  · refine excused_plain _ _ (fun _ => rfl) fun opened => ?_
    dsimp only
    split
    · exact trivial
    · refine ⟨excused_plain _ _ (fun _ => rfl) fun found => ?_, trivial⟩
      cases found with
      | none => exact trivial
      | some place =>
          refine excused_plain _ _ (fun _ => rfl) fun retEntry => excused_plain _ _ (fun _ => rfl) fun bytes => ?_
          split
          · exact excused_plain _ _ (fun _ => rfl) fun _ => trivial
          · exact trivial

theorem write_section_excused (api : KernelApi) (buf : Option Bytes) (count length : UInt64) (env : WriteEnv)
    (writeBuf : Ptr) (newLineFound : Bool) :
    Excused (GrantsUsedBlock (.write buf count env))
      (writeSection api writeBuf count length newLineFound env.krealloc) := by
  refine ⟨krealloc_excused api buf count length env, fun _ => excused_plain _ _ (fun _ => rfl) fun buffptr => ?_⟩
  split
  · exact excused_plain _ _ (fun _ => rfl) fun _ => trivial
  · refine excused_plain _ _ (fun _ => rfl) fun _ => excused_plain _ _ (fun _ => rfl) fun _ => ?_
    split
    · exact complete_line_excused _ (write_done_excused writeBuf count)
    · exact write_done_excused writeBuf count

theorem write_excused (api : KernelApi) (buf : Option Bytes) (count : UInt64) (env : WriteEnv) :
    Excused (GrantsUsedBlock (.write buf count env)) (aesdWriteCode api buf count env) := by
  cases buf with
  | none => exact trivial
  | some user =>
      refine ⟨kmalloc_excused api (some user) count env, fun writeBuf => ?_⟩
      dsimp only
      split
      · exact trivial
      · refine excused_plain _ _ (fun _ => rfl) fun opened => ?_
        split
        · exact trivial
        · refine excused_plain _ _ (fun _ => rfl) fun copied => ?_
          split
          · exact excused_plain _ _ (fun _ => rfl) fun _ => trivial
          · refine excused_plain _ _ (fun _ => rfl) fun bytes => ⟨?_, ?_⟩
            · exact write_section_excused api (some user) count _ env writeBuf _
            · exact excused_plain _ _ (fun _ => rfl) fun _ => trivial

theorem llseek_excused (api : KernelApi) (off : Int64) (whence : Int32) (lock : Bool) :
    Excused (GrantsUsedBlock (.llseek off whence lock)) (aesdLlseekCode api off whence lock) := by
  refine excused_plain _ _ (fun _ => rfl) fun opened => ?_
  split
  · exact trivial
  · refine ⟨add_sizes_excused _ (fun bufSize => excused_plain _ _ (fun _ => rfl) fun retval => ?_) _ _, trivial⟩
    split
    · exact trivial
    · exact excused_plain _ _ (fun _ => rfl) fun _ => trivial

theorem ioctl_excused (cmd : UInt32) (seekTo : AesdSeekto) (env : IoctlEnv) :
    Excused (GrantsUsedBlock (.ioctl cmd seekTo env)) (aesdIoctlCode cmd seekTo env) := by
  refine excused_plain _ _ (fun _ => rfl) fun opened => ?_
  split
  · exact trivial
  · split
    · exact trivial
    · split
      · exact trivial
      · refine ⟨?_, trivial⟩
        split
        · exact trivial
        · refine excused_plain _ _ (fun _ => rfl) fun size => ?_
          split
          · exact trivial
          · refine add_sizes_excused _ (fun offset => ?_) _ _
            exact excused_plain _ _ (fun _ => rfl) fun _ => trivial

theorem calls_excused (api : KernelApi) (call : DriverCall) : Excused (GrantsUsedBlock call) (callCode api call) := by
  cases call with
  | read buf count env => exact read_excused buf count env
  | write buf count env => exact write_excused api buf count env
  | llseek off whence lock => exact llseek_excused api off whence lock
  | ioctl cmd seekTo env => exact ioctl_excused cmd seekTo env

/-- The calls under way, and no others, are brought to their returns. -/
theorem calls_never_deadlock {ι : Type} [DecidableEq ι] (api : KernelApi) (events : List Event) (kernel : Kernel)
    (reached : AesdChar.Run api events kernel) (files : ι → OpenFile) (trace : List (Label DriverCall ι))
    (system : System Ptr Bytes AesdDev OpenFile CallReply DriverCall ι)
    (run : LockProgram.Run (callCode api) kernel files trace system) (busy : List ι)
    (others : ∀ client, client ∉ busy → (system.clients client).running = none) :
    ∃ more final, LockProgram.Run (callCode api) kernel files (trace ++ more) final ∧
      (∀ step ∈ more, ∀ request, step.action ≠ .start request) ∧
      ((final.holder = none ∧ ∀ client, (final.clients client).running = none) ∨
        ∃ client call, (final.clients client).running = some call ∧ Stuck final.store call.code ∧
          GrantsUsedBlock call.request final.store) := by
  have valid : Reachable api kernel := ⟨events, reached⟩
  obtain ⟨more, final, continued, drains⟩ :=
    calls_drain (calls_disciplined api) valid (calls_excused api) busy trace system run
  refine ⟨more, final, continued.run, continued.old, ?_⟩
  cases drains with
  | excused client call running stuck why => exact Or.inr ⟨client, call, running, stuck, why⟩
  | idle returned =>
      have idle : ∀ client, (final.clients client).running = none := by
        intro client
        by_cases member : client ∈ busy
        · exact returned client member
        · exact continued.idle client (others client member)
      refine Or.inl ⟨?_, idle⟩
      cases holder : final.holder with
      | none => rfl
      | some client =>
          exact absurd holder (idle_not_holder (calls_disciplined api) valid _ final client continued.run (idle client))

-- A reader waits for the mutex that a writer holds.
def waitingReader : List (Move DriverCall Bool) :=
  [.start false (.write (some [97, 10]) 2 ⟨⟨some 4096, fun _ => 0⟩, true, true, ⟨some 8192, fun _ => 0⟩⟩),
    .start true (.read 64 8 ⟨true, true⟩)] ++ List.replicate 5 (.go false) ++ [.go true]

theorem calls_never_deadlock_waiting :
    ∃ trace system, play (callCode stockKernel) (idleSystem loadedModule fun _ => openedFile) waitingReader =
      some (trace, system) ∧
      system.holder = some false ∧
      ∃ more final, LockProgram.Run (callCode stockKernel) loadedModule (fun _ => openedFile) (trace ++ more) final ∧
        (∀ step ∈ more, ∀ request, step.action ≠ .start request) ∧
        ((final.holder = none ∧ ∀ client, (final.clients client).running = none) ∨
          ∃ client call, (final.clients client).running = some call ∧ Stuck final.store call.code ∧
            GrantsUsedBlock call.request final.store) := by
  have holds : (play (callCode stockKernel) (idleSystem loadedModule fun _ => openedFile) waitingReader).map
      (fun played => played.2.holder) = some (some false) := by decide +kernel
  obtain ⟨⟨trace, system⟩, played, holder⟩ := Option.map_eq_some_iff.mp holds
  have run := play_run (callCode stockKernel) loadedModule (fun _ => openedFile) waitingReader [] trace _
    system .idle played
  refine ⟨trace, system, played, holder, ?_⟩
  exact calls_never_deadlock stockKernel [] loadedModule .loaded (fun _ => openedFile) trace system run [false, true]
    fun client absent => absurd (by cases client <;> simp) absent

end AesdChar
