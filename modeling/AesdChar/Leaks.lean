import AesdChar.Cleanup

set_option autoImplicit false

namespace AesdChar

open CyclicQueue HeapStore

-- Every live block is held by a retained slot or by working_entry, and each of
-- them holds a live one.
def NoLeak (kernel : Kernel) : Prop :=
  ∀ p, Live kernel.heap p ↔
    zeroOrNullPtr p = false ∧ Owned kernel (logicalContent kernel.dev.buffer) p

def Held (p a : Ptr) : Prop := a = p ∧ zeroOrNullPtr a = false

theorem kmalloc_ledger (api : KernelApi) (heap next : Heap) (size : UInt64) (answer : Answer) (p : Ptr)
    (allocated : kmalloc api heap size answer = (next, p)) (a : Ptr) (live : Live next a) : Live heap a ∨ Held p a := by
  have cases := kmalloc_cases api heap size answer
  rw [allocated] at cases
  cases cases with
  | refused => exact Or.inl live
  | zero empty => exact Or.inl live
  | block _ fresh positive fits =>
      rcases live_update heap p a _ live with rfl | old
      · exact Or.inr ⟨rfl, (fresh_address heap a fresh).1⟩
      · exact Or.inl old

theorem kfree_ledger (heap next : Heap) (p : Ptr) (freed : kfree heap p = some next) (a : Ptr) (live : Live next a) :
    Live heap a ∧ ¬ Held p a := by
  simp only [kfree] at freed
  split at freed
  · rename_i reserved
    cases Option.some.inj freed
    refine ⟨live, fun held => ?_⟩
    rw [held.1] at held
    exact absurd reserved (Bool.eq_false_iff.mp held.2)
  · split at freed
    · cases freed
    · cases Option.some.inj freed
      obtain ⟨different, old⟩ := live_release heap p a live
      exact ⟨old, fun held => different held.1⟩

theorem krealloc_ledger (api : KernelApi) (heap next : Heap) (p q : Ptr) (size : UInt64) (answer : Answer)
    (done : krealloc api heap p size answer = some (next, q)) (granted : q ≠ nullPtr) (a : Ptr) (live : Live next a) :
    (Live heap a ∧ ¬ Held p a) ∨ Held q a := by
  cases reserved : zeroOrNullPtr p with
  | true =>
      rw [krealloc_reserved api heap p size answer reserved] at done
      have free : ¬ Held p a := fun held => by
        rw [held.1] at held
        exact absurd reserved (Bool.eq_false_iff.mp held.2)
      exact (kmalloc_ledger api heap next size answer q (Option.some.inj done) a live).imp (fun old => ⟨old, free⟩) id
  | false =>
      cases here : heap p with
      | none =>
          rw [(krealloc_checked api heap p size answer).mpr ⟨reserved, here⟩] at done
          cases done
      | some old =>
          obtain ⟨result, ran, cases⟩ := krealloc_cases api heap p old size answer reserved here
          cases Option.some.inj (done.symm.trans ran)
          cases cases with
          | refused => exact absurd rfl granted
          | released empty =>
              obtain ⟨different, kept⟩ := live_release heap p a live
              exact Or.inl ⟨kept, fun held => different held.1⟩
          | kept fits =>
              by_cases same : a = p
              · exact Or.inr ⟨same, same ▸ reserved⟩
              · exact Or.inl ⟨(live_update heap p a _ live).resolve_left same, fun held => same held.1⟩
          | moved _ fresh fits =>
              rcases live_update _ q a _ live with rfl | old
              · exact Or.inr ⟨rfl, (fresh_address heap a fresh).1⟩
              · obtain ⟨different, kept⟩ := live_release heap p a old
                exact Or.inl ⟨kept, fun held => different held.1⟩

theorem heap_write_ledger (heap next : Heap) (p : Ptr) (offset : Nat) (bytes : Bytes)
    (wrote : heapWrite heap p offset bytes = some next) (a : Ptr) (live : Live next a) : Live heap a := by
  simp only [heapWrite] at wrote
  split at wrote
  · cases Option.some.inj wrote
    exact live
  · split at wrote
    · cases wrote
    · cases here : heap p with
      | none => simp [here] at wrote
      | some block =>
          simp only [here] at wrote
          split at wrote
          · cases Option.some.inj wrote
            rcases live_update heap p a _ live with rfl | old
            · exact ⟨block, here⟩
            · exact old
          · cases wrote

theorem copy_from_user_ledger (heap next : Heap) (p : Ptr) (user : Bytes) (count : UInt64) (ok copied : Bool)
    (copying : copyFromUser heap p user count ok = some (next, copied)) (a : Ptr)
    (live : Live next a) : Live heap a := by
  simp only [copyFromUser] at copying
  split at copying
  · cases Option.some.inj copying
    exact live
  · split at copying
    · obtain ⟨wrote, done, same⟩ := Option.map_eq_some_iff.mp copying
      cases same
      exact heap_write_ledger heap next p 0 _ done a live
    · cases Option.some.inj copying
      exact live

theorem append_ledger (kernel next : Kernel) (writeBuf : Ptr) (count : UInt64)
    (appended : appendToWorkingEntry kernel writeBuf count = some next) :
    next.dev = kernel.dev ∧ ∀ a, Live next.heap a → Live kernel.heap a := by
  simp only [appendToWorkingEntry] at appended
  split at appended
  · cases appended
  · obtain ⟨heap, wrote, rfl⟩ := Option.map_eq_some_iff.mp appended
    exact ⟨rfl, heap_write_ledger _ _ _ _ _ wrote⟩

theorem free_evicted_ledger (kernel next : Kernel) (retBuf : Ptr) (freed : freeEvicted kernel retBuf = some next) :
    next.dev = kernel.dev ∧ ∀ a, Live next.heap a → Live kernel.heap a ∧ ¬ Held retBuf a := by
  simp only [freeEvicted] at freed
  split at freed
  · rename_i none
    cases Option.some.inj freed
    refine ⟨rfl, fun a live => ⟨live, fun held => ?_⟩⟩
    exact real_not_null a held.2 (held.1.trans none)
  · obtain ⟨heap, done, rfl⟩ := Option.map_eq_some_iff.mp freed
    exact ⟨rfl, kfree_ledger _ _ _ done⟩

-- What the locked section does to the blocks and who holds them: q is the
-- block krealloc gives for the line, evicted the one the ring hands back.
inductive LockedLedger (kernel next : Kernel) : Prop where
  | kept (q : Ptr) (working : next.dev.workingEntry.buffptr = q) (buffer : next.dev.buffer = kernel.dev.buffer)
      (live : ∀ a, Live next.heap a → (Live kernel.heap a ∧ ¬ Held kernel.dev.workingEntry.buffptr a) ∨ Held q a)
  | completed (entry : AesdBufferEntry) (evicted : Ptr)
      (added : aesdCircularBufferAddEntry kernel.dev.buffer entry = some (next.dev.buffer, evicted))
      (live : ∀ a, Live next.heap a →
        ((Live kernel.heap a ∧ ¬ Held kernel.dev.workingEntry.buffptr a) ∨ Held entry.buffptr a) ∧ ¬ Held evicted a)

theorem write_locked_ledger (api : KernelApi) (kernel next : Kernel) (writeBuf : Ptr) (count : UInt64)
    (newLineFound : Bool) (answer : Answer)
    (ran : writeLocked api kernel writeBuf count newLineFound answer = some (next, true)) :
    LockedLedger kernel next := by
  obtain ⟨mid, grown, ran⟩ := Option.bind_eq_some_iff.mp ran
  simp only [reallocWorkingEntry] at grown
  split at grown
  · cases grown
  · rename_i heap q done
    cases Option.some.inj grown
    split at ran
    · cases Option.some.inj ran
    · rename_i granted
      obtain ⟨appended, wrote, ran⟩ := Option.bind_eq_some_iff.mp ran
      obtain ⟨sameDev, liveAppended⟩ := append_ledger _ appended writeBuf count wrote
      have live := krealloc_ledger api _ _ _ q _ answer done granted
      cases newLineFound with
      | false =>
          cases Option.some.inj ran
          refine .kept q ?_ ?_ fun a here => live a (liveAppended a here)
          · simp only [growWorkingEntry, Kernel.setWorking, sameDev]
          · simp only [growWorkingEntry, Kernel.setWorking, sameDev]
      | true =>
          simp only [if_true] at ran
          obtain ⟨⟨added, evicted⟩, adding, ran⟩ := Option.bind_eq_some_iff.mp ran
          obtain ⟨freed, freeing, ran⟩ := Option.bind_eq_some_iff.mp ran
          cases Option.some.inj ran
          obtain ⟨⟨buffer, ptr⟩, stored, same⟩ := Option.map_eq_some_iff.mp adding
          cases same
          obtain ⟨freedDev, liveFreed⟩ := free_evicted_ledger _ freed ptr freeing
          refine .completed ⟨q, kernel.dev.workingEntry.size + count⟩ ptr ?_ fun a here => ?_
          · simpa only [resetWorkingEntry, growWorkingEntry, Kernel.setWorking, freedDev, sameDev] using stored
          · obtain ⟨before, gone⟩ := liveFreed a here
            exact ⟨live a (liveAppended a before), gone⟩

theorem write_ledger (api : KernelApi) (kernel : Kernel) (filp : Filp) (buf : Option Bytes) (count : UInt64)
    (fPos : Int64) (env : WriteEnv) (result : CallResult)
    (ran : aesdWrite api kernel filp buf count fPos env = some result) (success : 0 ≤ result.ret) :
    ∃ w copied next, (∀ a, Live copied a → Live kernel.heap a ∨ Held w a) ∧ LockedLedger ⟨copied, kernel.dev⟩ next ∧
      result.kernel.dev = next.dev ∧ ∀ a, Live result.kernel.heap a → Live next.heap a ∧ ¬ Held w a := by
  cases buf with
  | none =>
      cases Option.some.inj ran
      exact absurd success (by decide : ¬ 0 ≤ -eInval)
  | some user =>
      unfold aesdWrite at ran
      generalize allocated : kmalloc api kernel.heap count env.kmalloc = answer at ran
      obtain ⟨heap, w⟩ := answer
      dsimp only at ran
      split at ran
      · cases Option.some.inj ran
        exact absurd success (by decide : ¬ 0 ≤ -eNoMem)
      · split at ran
        · cases Option.some.inj ran
          exact absurd success (by decide : ¬ 0 ≤ -ePerm)
        · obtain ⟨⟨copied, ok⟩, copying, ran⟩ := Option.bind_eq_some_iff.mp ran
          split at ran
          · obtain ⟨_, _, ran⟩ := Option.bind_eq_some_iff.mp ran
            cases Option.some.inj ran
            exact absurd success (by decide : ¬ 0 ≤ -eFault)
          · obtain ⟨bytes, _, ran⟩ := Option.bind_eq_some_iff.mp ran
            split at ran
            · obtain ⟨_, _, ran⟩ := Option.bind_eq_some_iff.mp ran
              cases Option.some.inj ran
              exact absurd success (by decide : ¬ 0 ≤ -eRestartSys)
            · obtain ⟨⟨next, stored⟩, locked, ran⟩ := Option.bind_eq_some_iff.mp ran
              obtain ⟨final, freed, ran⟩ := Option.bind_eq_some_iff.mp ran
              cases stored with
              | false =>
                  cases Option.some.inj ran
                  exact absurd success (by decide : ¬ 0 ≤ -eNoMem)
              | true =>
                  cases Option.some.inj ran
                  obtain ⟨freedHeap, done, rfl⟩ := Option.map_eq_some_iff.mp freed
                  refine ⟨w, copied, next, fun a live => ?_, write_locked_ledger api _ next w _ _ _ locked, rfl,
                    kfree_ledger _ _ w done⟩
                  exact kmalloc_ledger api kernel.heap heap count env.kmalloc w allocated a
                    (copy_from_user_ledger heap copied w user count _ ok copying a live)

theorem no_leak_iff (api : KernelApi) (kernel : Kernel) (content : List AesdBufferEntry) (lines : List Bytes)
    (working : Option Bytes) (rep : DevRep api kernel content lines working) :
    NoLeak kernel ↔ ∀ p, Live kernel.heap p → zeroOrNullPtr p = false ∧ Owned kernel content p := by
  rw [NoLeak, ring_rep_content _ content rep.ring]
  constructor
  · exact fun exact p live => (exact p).mp live
  · exact fun held p => ⟨held p, fun ⟨real, owned⟩ => owned_live api kernel content lines working rep p owned real⟩

theorem no_leak_loaded : NoLeak loadedModule :=
  (no_leak_iff stockKernel loadedModule [] [] (some []) (dev_rep_loaded stockKernel)).mpr fun _ live => by
    obtain ⟨_, here⟩ := live
    cases here

theorem push_keeps (content : List AesdBufferEntry) (entry other : AesdBufferEntry) (bounded : content.length ≤ 10)
    (member : other ∈ content) (stays : other.buffptr ≠ evictedPtr content) : other ∈ push 10 content entry := by
  by_cases full : content.length = 10
  · rw [push_full 10 content entry (by decide) full]
    cases content with
    | nil => simp at member
    | cons oldest rest =>
        have evicted : evictedPtr (oldest :: rest) = oldest.buffptr := by
          simp only [evictedPtr, full, if_true, List.headD_cons]
        rw [evicted] at stays
        rcases List.mem_cons.mp member with rfl | later
        · exact absurd rfl stays
        · exact List.mem_append_left _ later
  · rw [push_below 10 content entry (by omega)]
    exact List.mem_append_left _ member

-- A successful write frees or hands on every block it touches.
theorem write_keeps_ledger (api : KernelApi) (kernel : Kernel) (content nextContent : List AesdBufferEntry)
    (lines nextLines : List Bytes) (working nextWorking : Option Bytes) (filp : Filp) (buf : Option Bytes)
    (count : UInt64) (fPos : Int64) (env : WriteEnv) (result : CallResult)
    (rep : DevRep api kernel content lines working)
    (nextRep : DevRep api result.kernel nextContent nextLines nextWorking)
    (ran : aesdWrite api kernel filp buf count fPos env = some result) (success : 0 ≤ result.ret)
    (before : NoLeak kernel) : NoLeak result.kernel := by
  rw [no_leak_iff api kernel content lines working rep] at before
  rw [no_leak_iff api result.kernel nextContent nextLines nextWorking nextRep]
  obtain ⟨w, copied, next, fresh, ledger, sameDev, freed⟩ :=
    write_ledger api kernel filp buf count fPos env result ran success
  have slots := ring_rep_content _ nextContent nextRep.ring
  rw [sameDev] at slots
  have old : ∀ a, Live result.kernel.heap a → Live copied a → ¬ Held kernel.dev.workingEntry.buffptr a →
      zeroOrNullPtr a = false ∧ ∃ entry ∈ content, a = entry.buffptr := by
    intro a live here notWorking
    have earlier := (fresh a here).resolve_right (freed a live).2
    obtain ⟨real, same | stored⟩ := before a earlier
    · exact absurd ⟨same, real⟩ notWorking
    · exact ⟨real, stored⟩
  intro a live
  cases ledger with
  | kept q workingEq buffer moved =>
      rw [buffer, ring_rep_content _ content rep.ring] at slots
      rcases moved a (freed a live).1 with ⟨here, notWorking⟩ | ⟨same, real⟩
      · obtain ⟨real, entry, member, same⟩ := old a live here notWorking
        exact ⟨real, Or.inr ⟨entry, slots ▸ member, same⟩⟩
      · exact ⟨real, Or.inl (by rw [sameDev, workingEq, same])⟩
  | completed entry evicted added moved =>
      obtain ⟨buffer, stored, ring⟩ := add_entry_rep kernel.dev.buffer content entry rep.ring
      obtain ⟨sameBuffer, sameEvicted⟩ := Prod.mk.inj (Option.some.inj (added.symm.trans stored))
      rw [sameBuffer, ring_rep_content _ _ ring] at slots
      obtain ⟨origin, stays⟩ := moved a (freed a live).1
      rcases origin with ⟨here, notWorking⟩ | ⟨same, real⟩
      · obtain ⟨real, other, member, same⟩ := old a live here notWorking
        refine ⟨real, Or.inr ⟨other, slots ▸ push_keeps content entry other rep.ring.window.bounded member ?_, same⟩⟩
        intro gone
        exact stays ⟨by rw [same, gone, sameEvicted], real⟩
      · have last : entry ∈ push 10 content entry := List.mem_of_getLast? (push_last 10 content entry (by decide))
        exact ⟨real, Or.inr ⟨entry, slots ▸ last, same⟩⟩

-- The exit with -EPERM has no kfree for write_buf.
structure KeepsWriteBuf (api : KernelApi) (kernel : Kernel) (filp : Filp) (buf : Option Bytes) (count : UInt64)
    (env : WriteEnv) : Prop where
  unopened : filp.privateData = false
  given : buf ≠ none
  block : zeroOrNullPtr (kmalloc api kernel.heap count env.kmalloc).2 = false

theorem unopened_leaks_iff (api : KernelApi) (kernel : Kernel) (content : List AesdBufferEntry) (lines : List Bytes)
    (working : Option Bytes) (filp : Filp) (buf : Option Bytes) (count : UInt64) (fPos : Int64) (env : WriteEnv)
    (result : CallResult) (rep : DevRep api kernel content lines working)
    (ran : aesdWrite api kernel filp buf count fPos env = some result) (unopened : filp.privateData = false)
    (before : NoLeak kernel) : NoLeak result.kernel ↔ ¬ KeepsWriteBuf api kernel filp buf count env := by
  cases buf with
  | none =>
      cases Option.some.inj ran
      exact ⟨fun _ keeps => keeps.given rfl, fun _ => before⟩
  | some user =>
      have cases := kmalloc_cases api kernel.heap count env.kmalloc
      generalize allocated : kmalloc api kernel.heap count env.kmalloc = answer at cases
      have block : KeepsWriteBuf api kernel filp (some user) count env ↔ zeroOrNullPtr answer.2 = false := by
        rw [← allocated]
        exact ⟨fun keeps => keeps.block, fun real => ⟨unopened, by simp, real⟩⟩
      rw [block]
      simp only [aesdWrite, allocated, unopened, if_true, pure] at ran
      cases cases with
      | refused =>
          cases Option.some.inj ran
          exact ⟨fun _ real => absurd null_reserved (Bool.eq_false_iff.mp real), fun _ => before⟩
      | zero empty =>
          simp only [if_neg zero_size_not_null] at ran
          cases Option.some.inj ran
          exact ⟨fun _ real => absurd zero_size_reserved (Bool.eq_false_iff.mp real), fun _ => before⟩
      | block p fresh positive fits =>
          obtain ⟨real, absent⟩ := fresh_address kernel.heap p fresh
          simp only [if_neg (real_not_null p real)] at ran
          cases Option.some.inj ran
          refine ⟨fun exact => absurd ((exact p).mp ⟨_, Function.update_self ..⟩).2 ?_, fun keeps => absurd real keeps⟩
          rw [ring_rep_content _ content rep.ring]
          exact fresh_foreign api kernel content lines working rep p fresh

theorem refused_leaks_iff (api : KernelApi) (kernel : Kernel) (content : List AesdBufferEntry) (lines : List Bytes)
    (working : Option Bytes) (rep : DevRep api kernel content lines working) (before : NoLeak kernel) :
    NoLeak (kernel.setWorking { kernel.dev.workingEntry with buffptr := nullPtr }) ↔
      ¬ (kernel.dev.workingEntry.buffptr ≠ nullPtr ∧ kernel.dev.workingEntry.size ≠ 0) := by
  have nextRep := refused_rep api kernel content lines working rep
  rw [no_leak_iff api kernel content lines working rep] at before
  rw [no_leak_iff api _ content lines _ nextRep]
  have reserved : zeroOrNullPtr kernel.dev.workingEntry.buffptr = true → ∀ p, Live kernel.heap p →
      zeroOrNullPtr p = false ∧
        Owned (kernel.setWorking { kernel.dev.workingEntry with buffptr := nullPtr }) content p := by
    intro hidden p live
    obtain ⟨real, same | stored⟩ := before p live
    · rw [same, hidden] at real
      cases real
    · exact ⟨real, Or.inr stored⟩
  have pending := rep.pending
  generalize entryEq : kernel.dev.workingEntry = entry at pending reserved
  cases pending with
  | empty hidden zero => exact ⟨fun _ held => held.2 zero, fun _ => reserved hidden⟩
  | lost gone claimed fits => exact ⟨fun _ held => held.1 gone, fun _ => reserved (by rw [gone]; rfl)⟩
  | pending line block =>
      have claimed : entry.size ≠ 0 := by
        intro zero
        have size := block.size
        rw [zero] at size
        exact block.nonempty (List.eq_nil_of_length_eq_zero size.symm)
      refine ⟨fun held => ?_, fun none => absurd ⟨real_not_null _ block.real, claimed⟩ none⟩
      obtain ⟨_, same | ⟨other, member, same⟩⟩ := held entry.buffptr ⟨line, block.live⟩
      · exact absurd same (real_not_null _ block.real)
      · exact absurd (by rw [entryEq, same]) (rep.apart other member)

theorem write_leaks_iff (api : KernelApi) (kernel : Kernel) (content : List AesdBufferEntry) (lines : List Bytes)
    (working : Option Bytes) (filp : Filp) (buf : Option Bytes) (count : UInt64) (env : WriteEnv) (result : CallResult)
    (rep : DevRep api kernel content lines working)
    (ran : aesdWrite api kernel filp buf count filp.fPos env = some result) (before : NoLeak kernel) :
    NoLeak result.kernel ↔
      ¬ (DropsPending api kernel filp buf count env ∨ KeepsWriteBuf api kernel filp buf count env) := by
  by_cases unopened : filp.privateData = false
  · have exact := unopened_leaks_iff api kernel content lines working filp buf count filp.fPos env result rep
      ran unopened before
    have holds : ¬ DropsPending api kernel filp buf count env := by
      intro drops
      have refused := drops.refused
      cases buf <;> simp [kreallocRefused, unopened] at refused
    rw [exact, or_iff_right holds]
  · have opened : ¬ KeepsWriteBuf api kernel filp buf count env := fun keeps => unopened keeps.unopened
    rw [or_iff_left opened]
    obtain ⟨found, foundRan, effect⟩ :=
      aesd_write_effect api kernel content lines working filp buf count filp.fPos env rep
    cases Option.some.inj (ran.symm.trans foundRan)
    generalize flag : kreallocRefused api kernel filp buf count env = refused at effect
    have drops : DropsPending api kernel filp buf count env ↔
        refused = true ∧ kernel.dev.workingEntry.buffptr ≠ nullPtr ∧ kernel.dev.workingEntry.size ≠ 0 :=
      ⟨fun drops => ⟨flag ▸ drops.refused, drops.held, drops.claimed⟩, fun parts =>
        ⟨flag.trans parts.1, parts.2.1, parts.2.2⟩⟩
    rw [drops]
    cases effect with
    | rejected ret negative => simpa using before
    | leaked heap hidden kept => exact absurd hidden unopened
    | refused => simpa using refused_leaks_iff api kernel content lines working rep before
    | kept user next nextContent given mapped fits absent nextRep =>
        simpa using write_keeps_ledger api kernel content nextContent lines _ working _ filp buf count
          filp.fPos env _ rep nextRep ran (count_nonnegative api count fits) before
    | completed user next nextContent given mapped fits present nextRep =>
        simpa using write_keeps_ledger api kernel content nextContent lines _ working _ filp buf count
          filp.fPos env _ rep nextRep ran (count_nonnegative api count fits) before

-- krealloc refuses a longer line, whose block is then forgotten, or a call on a
-- file without private_data keeps its copy of the user's bytes.
def EventLeaks (api : KernelApi) (event : Event) : Prop :=
  match event.call with
  | .write buf count env =>
      DropsPending api event.kernel event.filp buf count env ∨ KeepsWriteBuf api event.kernel event.filp buf count env
  | _ => False

theorem event_leaks_iff (api : KernelApi) (kernel : Kernel) (content : List AesdBufferEntry) (lines : List Bytes)
    (working : Option Bytes) (filp : Filp) (call : DriverCall) (result : CallResult)
    (rep : DevRep api kernel content lines working) (ran : driverCall api kernel filp call = some result)
    (before : NoLeak kernel) : NoLeak result.kernel ↔ ¬ EventLeaks api ⟨kernel, filp, call, result⟩ := by
  cases call with
  | write buf count env =>
      exact write_leaks_iff api kernel content lines working filp buf count env result rep ran before
  | read buf count env =>
      obtain ⟨found, foundRan, same, _⟩ :=
        aesd_read_effect api kernel content lines working filp buf count filp.fPos env rep
      cases Option.some.inj (ran.symm.trans foundRan)
      rw [same]
      exact ⟨fun _ => id, fun _ => before⟩
  | llseek off whence lock =>
      cases Option.some.inj ran
      rw [aesd_llseek_kernel]
      exact ⟨fun _ => id, fun _ => before⟩
  | ioctl cmd seekTo env =>
      cases Option.some.inj ran
      rw [aesd_ioctl_kernel]
      exact ⟨fun _ => id, fun _ => before⟩

theorem run_leaks_iff (api : KernelApi) (events : List Event) (kernel : Kernel) (run : Run api events kernel) :
    ((∀ event ∈ events, NoLeak event.kernel) ∧ NoLeak kernel) ↔ ∀ event ∈ events, ¬ EventLeaks api event := by
  induction run with
  | loaded => simpa using no_leak_loaded
  | called events kernel filp call result earlier ran ih =>
      obtain ⟨content, working, rep⟩ := run_rep api events kernel earlier
      have step := event_leaks_iff api kernel content _ working filp call result rep ran
      simp only [List.forall_mem_append, List.forall_mem_singleton, ← ih]
      constructor
      · rintro ⟨⟨before, here⟩, after⟩
        exact ⟨⟨before, here⟩, (step here).mp after⟩
      · rintro ⟨⟨before, here⟩, holds⟩
        exact ⟨⟨before, here⟩, (step here).mpr holds⟩

theorem cleanup_leaks_iff (api : KernelApi) (kernel final : Kernel) (content : List AesdBufferEntry)
    (lines : List Bytes) (working : Option Bytes) (rep : DevRep api kernel content lines working)
    (exact : NoLeak kernel) (cleaned : aesdCleanupModule kernel = some final) :
    (∀ p, ¬ Live final.heap p) ↔ zeroOrNullPtr kernel.dev.workingEntry.buffptr = true := by
  rw [no_leak_iff api kernel content lines working rep] at exact
  obtain ⟨found, foundCleaned, gone, others⟩ := cleanup_frees api kernel content lines working rep
  cases Option.some.inj (cleaned.symm.trans foundCleaned)
  constructor
  · intro empty
    by_contra pending
    have real : zeroOrNullPtr kernel.dev.workingEntry.buffptr = false := by simpa using pending
    obtain ⟨block, live⟩ := owned_live api kernel content lines working rep _ (Or.inl rfl) real
    refine empty kernel.dev.workingEntry.buffptr ⟨block, ?_⟩
    rw [others _ rep.apart, live]
  · rintro reserved p ⟨block, live⟩
    by_cases stored : ∃ entry ∈ content, entry.buffptr = p
    · obtain ⟨entry, member, rfl⟩ := stored
      rw [gone entry member] at live
      cases live
    · rw [others p fun entry member same => stored ⟨entry, member, same⟩] at live
      obtain ⟨real, same | ⟨entry, member, same⟩⟩ := exact p ⟨block, live⟩
      · rw [same, reserved] at real
        cases real
      · exact stored ⟨entry, member, same.symm⟩

theorem blocks_accounted_exactly (api : KernelApi) (events : List Event) (kernel : Kernel)
    (run : Run api events kernel) :
    ∃ final, aesdCleanupModule kernel = some final ∧
      (((∀ event ∈ events, NoLeak event.kernel) ∧ NoLeak kernel ∧ ∀ p, ¬ Live final.heap p) ↔
        (∀ event ∈ events, ¬ EventLeaks api event) ∧ zeroOrNullPtr kernel.dev.workingEntry.buffptr = true) := by
  obtain ⟨content, working, rep⟩ := run_rep api events kernel run
  obtain ⟨final, cleaned, _⟩ := cleanup_frees api kernel content _ working rep
  have calls := run_leaks_iff api events kernel run
  have unload := cleanup_leaks_iff api kernel final content _ working rep
  refine ⟨final, cleaned, ?_, ?_⟩
  · rintro ⟨before, here, empty⟩
    exact ⟨calls.mp ⟨before, here⟩, (unload here cleaned).mp empty⟩
  · rintro ⟨holds, reserved⟩
    obtain ⟨before, here⟩ := calls.mpr holds
    exact ⟨before, here, (unload here cleaned).mpr reserved⟩

theorem blocks_accounted_one_line :
    ∃ events kernel final, Run stockKernel events kernel ∧ aesdCleanupModule kernel = some final ∧
      (∀ event ∈ events, NoLeak event.kernel) ∧ NoLeak kernel ∧ ∀ p, ¬ Live final.heap p := by
  let call := (sampleWrite [97, 10] 4096 8192).toDriver.2
  have moved : (driverCall stockKernel loadedModule ⟨true, 0⟩ call).map
      (fun result => zeroOrNullPtr result.kernel.dev.workingEntry.buffptr) = some true := by decide
  obtain ⟨result, ran, reserved⟩ := Option.map_eq_some_iff.mp moved
  have run := Run.called [] loadedModule ⟨true, 0⟩ call result .loaded ran
  obtain ⟨final, cleaned, exactly⟩ := blocks_accounted_exactly stockKernel _ result.kernel run
  have holds : ¬ EventLeaks stockKernel ⟨loadedModule, ⟨true, 0⟩, call, result⟩ := by
    rintro (drops | keeps)
    · exact drops.held rfl
    · exact Bool.noConfusion keeps.unopened
  exact ⟨_, _, final, run, cleaned, exactly.mpr ⟨by simpa using holds, reserved⟩⟩

theorem unload_leaks_pending :
    ∃ events kernel final, Run stockKernel events kernel ∧ aesdCleanupModule kernel = some final ∧
      Live final.heap 8192 := by
  have left : ((runCalls stockKernel loadedModule [(sampleWrite [97, 98] 4096 8192).toDriver]).bind fun ran =>
      (aesdCleanupModule ran.2).map fun final => final.heap 8192) = some (some [97, 98]) := by decide
  obtain ⟨events, kernel, ran, run⟩ := sample_run [(sampleWrite [97, 98] 4096 8192).toDriver] (by decide)
  rw [ran, Option.bind_some] at left
  obtain ⟨final, cleaned, live⟩ := Option.map_eq_some_iff.mp left
  exact ⟨events, kernel, final, run, cleaned, _, live⟩

end AesdChar
