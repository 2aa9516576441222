import AesdChar.CallCode
import AesdChar.DriverRun
import AesdChar.Library.Interleaving

set_option autoImplicit false

namespace AesdChar

open HeapStore LockProgram

def allocated : DriverCall → Ptr → Prop
  | .write _ _ env, p => env.kmalloc.address = some p
  | _, _ => False

def oneBlock (p : Ptr) (bytes : Bytes) : Heap := Function.update noBlocks p (some bytes)

theorem one_block_here (p : Ptr) (bytes : Bytes) : oneBlock p bytes p = some bytes := Function.update_self _ _ _

theorem one_block_elsewhere (p a : Ptr) (bytes : Bytes) (different : a ≠ p) : oneBlock p bytes a = none :=
  Function.update_of_ne different _ _

theorem one_block_free (p : Ptr) (bytes : Bytes) (real : zeroOrNullPtr p = false) :
    kfree (oneBlock p bytes) p = some noBlocks := by
  rw [kfree_live _ p bytes real (one_block_here p bytes), oneBlock, Function.update_idem]
  exact congrArg some (Function.update_eq_self p noBlocks)

inductive OwnBuf (count : Nat) (claimed : Ptr → Prop) : Ptr → Heap → Prop where
  | empty (zero : count = 0) : OwnBuf count claimed zeroSizePtr noBlocks
  | block (p : Ptr) (bytes : Bytes) (real : zeroOrNullPtr p = false) (given : claimed p) (size : bytes.length = count) :
      OwnBuf count claimed p (oneBlock p bytes)

theorem own_buf_within (count : Nat) (claimed : Ptr → Prop) (p : Ptr) (blocks : Heap)
    (holds : OwnBuf count claimed p blocks) (a : Ptr) : blocks a = none ∨ claimed a := by
  cases holds with
  | empty => exact Or.inl rfl
  | block _ bytes real given size =>
      by_cases same : a = p
      · exact Or.inr (same ▸ given)
      · exact Or.inl (one_block_elsewhere p a bytes same)

theorem own_buf_free (count : Nat) (claimed : Ptr → Prop) (p : Ptr) (blocks : Heap)
    (holds : OwnBuf count claimed p blocks) : kfree blocks p = some noBlocks := by
  cases holds with
  | empty => exact kfree_reserved noBlocks zeroSizePtr zero_size_reserved
  | block _ bytes real given size => exact one_block_free p bytes real

theorem own_buf_not_null (count : Nat) (claimed : Ptr → Prop) (p : Ptr) (blocks : Heap)
    (holds : OwnBuf count claimed p blocks) : p ≠ nullPtr := by
  cases holds with
  | empty => exact zero_size_not_null
  | block _ bytes real given size => exact real_not_null p real

theorem own_buf_read (count : Nat) (claimed : Ptr → Prop) (p : Ptr) (blocks : Heap)
    (holds : OwnBuf count claimed p blocks) : ∃ bytes, heapRead blocks p 0 count = some bytes := by
  cases holds with
  | empty zero => exact ⟨[], by simp [heapRead, zero]⟩
  | block _ bytes real given size =>
      exact ⟨_, heap_read_live _ p bytes 0 count real (one_block_here p bytes) (by omega)⟩

theorem own_buf_copy (count : UInt64) (claimed : Ptr → Prop) (p : Ptr) (blocks : Heap) (user : Bytes) (ok : Bool)
    (holds : OwnBuf count.toNat claimed p blocks) :
    ∃ next copied, copyFromUser blocks p user count ok = some (next, copied) ∧ OwnBuf count.toNat claimed p next ∧
      ∀ rest, Apart next rest → Apart blocks rest := by
  unfold copyFromUser
  by_cases nothing : count = 0
  · exact ⟨blocks, true, by rw [if_pos nothing], holds, fun _ apart => apart⟩
  · by_cases readable : ok = true ∧ count.toNat ≤ user.length
    · rw [if_neg nothing, if_pos readable]
      cases holds with
      | empty zero => exact absurd (UInt64.toNat_inj.mp (by simpa using zero)) nothing
      | block _ bytes real given size =>
          have length : bytes.length = 0 + (user.take count.toNat).length := by
            rw [List.length_take, size]
            omega
          rw [heap_write_end _ p bytes (user.take count.toNat) 0 real (one_block_here p bytes) length, oneBlock,
            Function.update_idem]
          refine ⟨_, true, rfl, .block p _ real given ?_, fun rest apart a => ?_⟩
          · rw [List.length_append, List.length_take, List.length_take]
            omega
          · by_cases same : a = p
            · subst same
              exact Or.inr (live_apart _ rest a _ apart (one_block_here a _))
            · exact Or.inl (one_block_elsewhere p a bytes same)
    · exact ⟨blocks, false, by rw [if_neg nothing, if_neg readable], holds, fun _ apart => apart⟩

theorem kmalloc_own_buf (api : KernelApi) (count : UInt64) (answer : Answer) :
    (∀ rest, Apart (kmalloc api noBlocks count answer).1 rest →
      grantable api (union noBlocks rest) count answer = true) ∧
    (((kmalloc api noBlocks count answer).2 = nullPtr ∧ (kmalloc api noBlocks count answer).1 = noBlocks) ∨
      OwnBuf count.toNat (fun p => answer.address = some p) (kmalloc api noBlocks count answer).2
        (kmalloc api noBlocks count answer).1) := by
  unfold kmalloc
  by_cases empty : count = 0
  · simp only [empty, if_true]
    exact ⟨fun _ _ => by simp [grantable], Or.inr (.empty rfl)⟩
  · by_cases large : api.kmallocMaxSize < count.toNat
    · simp only [empty, large, if_false, if_true]
      exact ⟨fun _ _ => by simp [grantable, large], Or.inl (by simp)⟩
    · cases address : answer.address with
      | none =>
          simp only [empty, large, if_false]
          exact ⟨fun _ _ => by simp [grantable, address], Or.inl (by simp)⟩
      | some p =>
          simp only [empty, large, if_false]
          by_cases reserved : zeroOrNullPtr p = true
          · have stale : freshAddress noBlocks p = false := by simp [freshAddress, reserved]
            simp only [stale]
            exact ⟨fun _ _ => by simp [grantable, address, reserved], Or.inl (by simp)⟩
          · have fresh : freshAddress noBlocks p = true := by simp [freshAddress, reserved, noBlocks]
            simp only [fresh, if_true]
            refine ⟨fun rest apart => ?_, Or.inr (.block p _ (by simpa using reserved) rfl (stale_length _ _ _))⟩
            have absent := live_apart _ rest p _ apart (one_block_here p _)
            simp [grantable, address, absent]

theorem kfree_gives (heap next : Heap) (p : Ptr) (freed : kfree heap p = some next) :
    ∃ blocks, Apart blocks next ∧ heap = union blocks next ∧ kfree blocks p = some noBlocks := by
  by_cases reserved : zeroOrNullPtr p = true
  · rw [kfree_reserved heap p reserved] at freed
    cases freed
    exact ⟨noBlocks, no_blocks_apart _, rfl, kfree_reserved noBlocks p reserved⟩
  · have real : zeroOrNullPtr p = false := by simpa using reserved
    cases live : heap p with
    | none => simp [kfree, real, live] at freed
    | some block =>
        rw [kfree_live heap p block real live] at freed
        cases freed
        refine ⟨oneBlock p block, fun a => ?_, ?_, one_block_free p block real⟩
        · by_cases same : a = p
          · exact Or.inr (by rw [same, Function.update_self])
          · exact Or.inl (one_block_elsewhere p a block same)
        · funext a
          by_cases same : a = p
          · rw [same, union_left _ _ p block (one_block_here p block), live]
          · rw [union_right _ _ a (one_block_elsewhere p a block same), Function.update_of_ne same]

def Reachable (api : KernelApi) (kernel : Kernel) : Prop := ∃ events, Run api events kernel

theorem call_total (api : KernelApi) (call : DriverCall) (file : OpenFile) (kernel : Kernel)
    (reachable : Reachable api kernel) :
    ∃ after final reply, Reachable api after ∧ exec (callCode api call) kernel file = some (after, final, reply) := by
  obtain ⟨events, run⟩ := reachable
  obtain ⟨result, ran⟩ := run_call_safe api events kernel file.1 call run
  refine ⟨result.kernel, file.moveTo result.fPos, ⟨result.ret, result.out⟩,
    ⟨_, .called events kernel _ call result run ran⟩, ?_⟩
  rw [exec_call_code, sequentialCall, ran, Option.map_some]

theorem finishes_ret (file : OpenFile) (reply : CallReply) :
    Finishes (.ret reply : DriverCode) noBlocks file file reply := ⟨rfl, rfl, rfl⟩

theorem finishes_record {τ : Type} (f : AesdDev → OpenFile → Option (AesdDev × OpenFile × τ)) (next : τ → DriverCode)
    (file moved final : OpenFile) (value : τ) (reply : CallReply) (blocks : Heap)
    (silent : ∀ dev, f dev file = some (dev, moved, value)) (later : Finishes (next value) blocks moved final reply) :
    Finishes (.step (.record f) next) blocks file final reply :=
  ⟨blocks, moved, value, fun _ => rfl, fun dev => by simp only [Statement.record, silent, Option.map_some], later⟩

theorem finishes_free (p : Ptr) (next : Unit → DriverCode) (file final : OpenFile) (reply : CallReply) (blocks : Heap)
    (owned : kfree blocks p = some noBlocks) (later : Finishes (next ()) noBlocks file final reply) :
    Finishes (.step (kfreeBlock p) next) blocks file final reply :=
  ⟨noBlocks, file, (), fun _ => rfl, fun dev => by simp only [kfreeBlock, owned, Option.map_some], later⟩

theorem unlocks_free (p : Ptr) (next : DriverCode)
    (finishes : ∀ file, ∃ final reply, Finishes next noBlocks file final reply) :
    Unlocks (.unlock (.step (kfreeBlock p) fun _ => next)) := by
  intro kernel file after final reply ran
  rw [exec_step] at ran
  simp only [kfreeBlock, Option.bind_map, Option.bind_eq_some_iff, Function.comp] at ran
  obtain ⟨heap, freed, rest⟩ := ran
  obtain ⟨blocks, apart, whole, owned⟩ := kfree_gives kernel.heap heap p freed
  obtain ⟨last, answer, plain⟩ := finishes file
  have ended := exec_finishes next noBlocks heap file last answer kernel.dev (no_blocks_apart _) plain
  cases Option.some.inj (rest.symm.trans ended)
  refine ⟨blocks, apart, ?_, finishes_free p _ file final reply blocks owned plain⟩
  rw [Store.extend, ← whole]

theorem unlocks_ret (reply : CallReply) : Unlocks (.unlock (.ret reply) : DriverCode) :=
  unlocks_plain _ fun file => ⟨file, reply, finishes_ret file reply⟩

theorem add_sizes_unlocks (next : UInt64 → DriverCode) (unlocks : ∀ size, Unlocks (next size)) (slots : List Nat)
    (size : UInt64) : Unlocks (addSizes next slots size) := by
  induction slots generalizing size with
  | nil => exact unlocks size
  | cons slot rest ih => exact fun entrySize => ih (size + entrySize)

theorem write_section_unlocks (api : KernelApi) (writeBuf : Ptr) (count bytesToWrite : UInt64) (newLineFound : Bool)
    (answer : Answer) : Unlocks (writeSection api writeBuf count bytesToWrite newLineFound answer) := by
  have done : Unlocks (writeDone writeBuf count) :=
    unlocks_free writeBuf _ fun file => ⟨_, _, finishes_record _ _ file _ _ () _ _ (fun _ => rfl) (finishes_ret _ _)⟩
  have reset : Unlocks (resetWorking (writeDone writeBuf count)) := fun _ _ => done
  intro _ buffptr
  dsimp only
  split
  · exact unlocks_free writeBuf _ fun file => ⟨file, _, finishes_ret file _⟩
  · intro _ _
    dsimp only
    split
    · intro retBuf
      dsimp only
      split
      · exact reset
      · exact fun _ => reset
    · exact done

theorem before_record {τ : Type} (inv : Kernel → Prop) (claimed : Ptr → Prop) (origin : DriverCode) (file : OpenFile)
    (f : AesdDev → OpenFile → Option (AesdDev × OpenFile × τ)) (next : τ → DriverCode) (blocks : Heap) (value : τ)
    (replays : Replays origin file (.step (.record f) next) blocks file) (claims : ∀ a, blocks a = none ∨ claimed a)
    (silent : ∀ dev, f dev file = some (dev, file, value))
    (later : Replays origin file (next value) blocks file → Before inv claimed (next value) blocks file) :
    Before inv claimed (.step (.record f) next) blocks file :=
  before_quiet inv claimed origin file file file _ next blocks blocks value replays claims
    (fun _ apart => ⟨apart, fun _ => rfl⟩) (fun dev => by simp only [Statement.record, silent, Option.map_some]) later

theorem checked_call (api : KernelApi) (call : DriverCall) (file : OpenFile) (next : Bool → DriverCode)
    (code : callCode api call = .step privateData next)
    (later : Replays (callCode api call) file (next true) noBlocks file →
      Before (Reachable api) (allocated call) (next true) noBlocks file) :
    Before (Reachable api) (allocated call) (callCode api call) noBlocks file := by
  have started := replays_start (callCode api call) file
  rw [code] at started ⊢
  exact before_record _ _ _ file _ next noBlocks true started (fun _ => Or.inl rfl)
    (fun dev => by rw [file.2]) (code ▸ later)

theorem read_disciplined (api : KernelApi) (buf : Ptr) (count : UInt64) (env : ReadEnv) (file : OpenFile) :
    Before (Reachable api) (allocated (.read buf count env)) (callCode api (.read buf count env)) noBlocks file := by
  by_cases null : buf = nullPtr
  · simp only [callCode, aesdReadCode, null, if_true]
    rfl
  · refine checked_call api _ file _ (by simp only [callCode, aesdReadCode, null, if_false]; rfl) fun replays => ?_
    refine before_lock _ _ _ _ _ file file noBlocks env.lock replays (call_total api _ file) ?_
      ⟨file, _, finishes_ret file _⟩
    intro found
    cases found with
    | none => exact unlocks_ret _
    | some place =>
        intro retEntry bytes
        dsimp only
        split
        · exact fun _ => unlocks_ret _
        · exact unlocks_ret _

theorem llseek_disciplined (api : KernelApi) (off : Int64) (whence : Int32) (lock : Bool) (file : OpenFile) :
    Before (Reachable api) (allocated (.llseek off whence lock)) (callCode api (.llseek off whence lock))
      noBlocks file := by
  refine checked_call api _ file _ rfl fun replays => ?_
  refine before_lock _ _ _ _ _ file file noBlocks lock replays (call_total api _ file) ?_ ⟨file, _, finishes_ret file _⟩
  refine add_sizes_unlocks _ (fun bufSize => ?_) _ _
  intro retval
  dsimp only
  split
  · exact unlocks_ret _
  · exact fun _ => unlocks_ret _

theorem ioctl_disciplined (api : KernelApi) (cmd : UInt32) (seekTo : AesdSeekto) (env : IoctlEnv) (file : OpenFile) :
    Before (Reachable api) (allocated (.ioctl cmd seekTo env)) (callCode api (.ioctl cmd seekTo env))
      noBlocks file := by
  refine checked_call api _ file _ rfl fun replays => ?_
  by_cases other : cmd = aesdcharIocseekto
  · cases copied : env.copyFromUser with
    | false =>
        simp only [other, ne_eq, not_true_eq_false, if_false, if_true, Bool.true_eq_false]
        rfl
    | true =>
        simp only [other, copied, ne_eq, not_true_eq_false, if_false, Bool.true_eq_false] at replays ⊢
        refine before_lock _ _ _ _ _ file file noBlocks env.lock replays ?_ ?_ ⟨file, _, finishes_ret file _⟩
        · exact other ▸ call_total api (.ioctl cmd seekTo env) file
        · split
          · exact unlocks_ret _
          · intro size
            dsimp only
            split
            · exact unlocks_ret _
            · exact add_sizes_unlocks _ (fun offset => unlocks_plain _ fun file =>
                ⟨_, _, finishes_record _ _ file _ _ () _ _ (fun _ => rfl) (finishes_ret _ _)⟩) _ _
  · simp only [other, ne_eq, not_false_eq_true, if_true, if_false, Bool.true_eq_false]
    rfl

theorem write_disciplined (api : KernelApi) (buf : Option Bytes) (count : UInt64) (env : WriteEnv) (file : OpenFile) :
    Before (Reachable api) (allocated (.write buf count env)) (callCode api (.write buf count env)) noBlocks file := by
  cases buf with
  | none => rfl
  | some user =>
      obtain ⟨grants, outcome⟩ := kmalloc_own_buf api count env.kmalloc
      have started := replays_start (callCode api (.write (some user) count env)) file
      generalize made : kmalloc api noBlocks count env.kmalloc = result at grants outcome
      obtain ⟨blocks, writeBuf⟩ := result
      have within : ∀ a, blocks a = none ∨ allocated (.write (some user) count env) a := by
        rcases outcome with ⟨_, empty⟩ | own
        · exact fun a => Or.inl (congrFun empty a)
        · exact own_buf_within count.toNat _ writeBuf blocks own
      refine before_quiet _ _ _ file file file _ _ noBlocks blocks writeBuf started within
        (fun rest apart => ⟨no_blocks_apart rest, fun _ => grants rest apart⟩)
        (fun dev => by simp only [kmallocWriteBuf, made])
        fun replays => ?_
      rcases outcome with ⟨null, empty⟩ | own
      · simp only [show writeBuf = nullPtr from null, if_true]
        exact empty
      · simp only [own_buf_not_null count.toNat _ writeBuf blocks own, if_false] at replays ⊢
        refine before_record _ _ _ file _ _ blocks true replays within (fun dev => by rw [file.2]) fun replays => ?_
        obtain ⟨filled, copied, copy, ownFilled, larger⟩ :=
          own_buf_copy count _ writeBuf blocks user env.copyFromUser own
        have withinFilled := own_buf_within count.toNat _ writeBuf filled ownFilled
        have freed := own_buf_free count.toNat _ writeBuf filled ownFilled
        refine before_quiet _ _ _ file file file _ _ blocks filled copied replays withinFilled
          (fun rest apart => ⟨larger rest apart, fun _ => rfl⟩)
          (fun dev => by simp only [copyToWriteBuf, copy, Option.map_some])
          fun replays => ?_
        cases copied with
        | false => exact Or.inl ⟨file, _, finishes_free writeBuf _ file file _ filled freed (finishes_ret file _)⟩
        | true =>
            obtain ⟨bytes, read⟩ := own_buf_read count.toNat _ writeBuf filled ownFilled
            refine before_quiet _ _ _ file file file _ _ filled filled bytes replays withinFilled
              (fun _ apart => ⟨apart, fun _ => rfl⟩) (fun dev => by simp only [readBlock, read, Option.map_some])
              fun replays => ?_
            exact before_lock _ _ _ _ _ file file filled env.lock replays (call_total api _ file)
              (write_section_unlocks api writeBuf count _ _ env.krealloc)
              ⟨file, _, finishes_free writeBuf _ file file _ filled freed (finishes_ret file _)⟩

theorem calls_disciplined (api : KernelApi) : Disciplined (callCode api) (Reachable api) allocated := by
  intro call file
  cases call with
  | read buf count env => exact read_disciplined api buf count env file
  | write buf count env => exact write_disciplined api buf count env file
  | llseek off whence lock => exact llseek_disciplined api off whence lock file
  | ioctl cmd seekTo env => exact ioctl_disciplined api cmd seekTo env file

/-- Calls that have all returned have done what they do one after another, by lock acquisition. -/
theorem calls_serialisable {ι : Type} [DecidableEq ι] (api : KernelApi) (events : List Event) (kernel : Kernel)
    (reached : Run api events kernel) (files : ι → OpenFile) (trace : List (Label DriverCall ι))
    (system : System Ptr Bytes AesdDev OpenFile CallReply DriverCall ι)
    (run : LockProgram.Run (callCode api) kernel files trace system) :
    (∀ client, system.holder = some client →
      ∃ call, (system.clients client).running = some call ∧ ∀ reply, call.code ≠ .ret reply) ∧
    (∀ client call (τ : Type) (statement : DriverStatement τ) next, (system.clients client).running = some call →
      call.code = .step statement next → statement.allowed system.store = true →
      ∃ result, statement.run system.store (system.clients client).own = some result) ∧
    (∀ one other, [one, other, one].Sublist (lockedStatements trace) → other = one) ∧
    ((∀ client, (system.clients client).running = none) → ∃ order : List (ι × Turn DriverCall CallReply),
      lockers order = acquisitions trace ∧ (∀ client, turnsOf client order = (system.clients client).returned) ∧
      Serial (sequentialCall api) allocated kernel files order system.store
        (fun client => (system.clients client).own)) := by
  have valid : Reachable api kernel := ⟨events, reached⟩
  obtain ⟨order, serial, positions, parts, coupled⟩ := run_coupled (calls_disciplined api) valid run
  refine ⟨holder_running coupled, ?_, (run_grouped (calls_disciplined api) valid run).grouped, fun idle => ⟨order, ?_⟩⟩
  · intro client call τ statement next running code allowed
    exact coupled_safe coupled client call running τ statement next code allowed
  · obtain ⟨replayed, returned, acquired⟩ := coupled_serial coupled idle
    refine ⟨acquired, returned, ?_⟩
    have same : (fun call => exec (callCode api call)) = sequentialCall api := funext (exec_call_code api)
    rwa [same] at replayed

def openedFile : OpenFile := ⟨⟨true, 0⟩, rfl⟩

def twoClients : List (Move DriverCall Bool) :=
  [.start false (.write (some [97, 10]) 2 ⟨⟨some 4096, fun _ => 0⟩, true, true, ⟨some 8192, fun _ => 0⟩⟩),
    .start true (.read 64 8 ⟨true, true⟩)] ++
  List.replicate 4 (.go false) ++ [.go true] ++ List.replicate 9 (.go false) ++ List.replicate 3 (.go true) ++
  List.replicate 2 (.go false) ++ List.replicate 2 (.go true) ++ [.go false] ++ List.replicate 2 (.go true)

theorem calls_serialisable_two_clients :
    ∃ trace system, play (callCode stockKernel) (idleSystem loadedModule fun _ => openedFile) twoClients =
      some (trace, system) ∧
      (system.clients true).returned.map Turn.reply = [⟨2, [97, 10]⟩] ∧
      ∃ order, lockers order = acquisitions trace ∧
        (∀ client, turnsOf client order = (system.clients client).returned) ∧
        Serial (sequentialCall stockKernel) allocated loadedModule (fun _ => openedFile) order system.store
          (fun client => (system.clients client).own) := by
  have ends : (play (callCode stockKernel) (idleSystem loadedModule fun _ => openedFile) twoClients).map (fun played =>
      ((played.2.clients true).returned.map Turn.reply, (played.2.clients true).running.isNone,
        (played.2.clients false).running.isNone)) = some ([⟨2, [97, 10]⟩], true, true) := by decide +kernel
  obtain ⟨⟨trace, system⟩, played, shown⟩ := Option.map_eq_some_iff.mp ends
  simp only [Prod.mk.injEq, Option.isNone_iff_eq_none] at shown
  obtain ⟨replies, reader, writer⟩ := shown
  have run := play_run (callCode stockKernel) loadedModule (fun _ => openedFile) twoClients [] trace _
    system .idle played
  refine ⟨trace, system, played, replies, ?_⟩
  refine (calls_serialisable stockKernel [] loadedModule .loaded (fun _ => openedFile) trace system run).2.2.2
    fun client => ?_
  cases client with
  | false => exact writer
  | true => exact reader

end AesdChar
