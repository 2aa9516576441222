import AesdChar.Leaks

set_option autoImplicit false

namespace AesdChar

open CyclicQueue HeapStore

-- The other half of the ledger: a live block that nothing of the driver points
-- to stays live, and nothing comes to point to it.

theorem kmalloc_spares (api : KernelApi) (heap next : Heap) (size : UInt64) (answer : Answer) (p a : Ptr)
    (allocated : kmalloc api heap size answer = (next, p)) (live : Live heap a) (real : zeroOrNullPtr a = false) :
    Live next a ∧ a ≠ p := by
  have cases := kmalloc_cases api heap size answer
  rw [allocated] at cases
  cases cases with
  | refused => exact ⟨live, real_not_null a real⟩
  | zero empty =>
      refine ⟨live, ?_⟩
      rintro rfl
      exact absurd zero_size_reserved (Bool.eq_false_iff.mp real)
  | block _ fresh positive fits =>
      obtain ⟨block, here⟩ := live
      have different : a ≠ p := by
        rintro rfl
        rw [(fresh_address heap a fresh).2] at here
        cases here
      exact ⟨⟨block, by rw [Function.update_of_ne different, here]⟩, different⟩

theorem kfree_spares (heap next : Heap) (p a : Ptr) (freed : kfree heap p = some next)
    (live : Live heap a) (other : a ≠ p) :
    Live next a := by
  simp only [kfree] at freed
  split at freed
  · cases Option.some.inj freed
    exact live
  · split at freed
    · cases freed
    · cases Option.some.inj freed
      obtain ⟨block, here⟩ := live
      exact ⟨block, by rw [Function.update_of_ne other, here]⟩

theorem krealloc_spares (api : KernelApi) (heap next : Heap) (p q a : Ptr) (size : UInt64) (answer : Answer)
    (done : krealloc api heap p size answer = some (next, q)) (live : Live heap a) (real : zeroOrNullPtr a = false)
    (other : a ≠ p) : Live next a ∧ a ≠ q := by
  cases reserved : zeroOrNullPtr p with
  | true =>
      rw [krealloc_reserved api heap p size answer reserved] at done
      exact kmalloc_spares api heap next size answer q a (Option.some.inj done) live real
  | false =>
      cases here : heap p with
      | none =>
          rw [(krealloc_checked api heap p size answer).mpr ⟨reserved, here⟩] at done
          cases done
      | some old =>
          obtain ⟨result, ran, cases⟩ := krealloc_cases api heap p old size answer reserved here
          cases Option.some.inj (done.symm.trans ran)
          obtain ⟨block, found⟩ := live
          cases cases with
          | refused => exact ⟨⟨block, found⟩, real_not_null a real⟩
          | released empty =>
              refine ⟨⟨block, by rw [Function.update_of_ne other, found]⟩, ?_⟩
              rintro rfl
              exact absurd zero_size_reserved (Bool.eq_false_iff.mp real)
          | kept fits => exact ⟨⟨block, by rw [Function.update_of_ne other, found]⟩, other⟩
          | moved _ fresh fits =>
              have different : a ≠ q := by
                rintro rfl
                rw [(fresh_address heap a fresh).2] at found
                cases found
              exact ⟨⟨block, by rw [Function.update_of_ne different, Function.update_of_ne other, found]⟩, different⟩

theorem heap_write_spares (heap next : Heap) (p a : Ptr) (offset : Nat) (bytes : Bytes)
    (wrote : heapWrite heap p offset bytes = some next) (live : Live heap a) : Live next a := by
  simp only [heapWrite] at wrote
  split at wrote
  · cases Option.some.inj wrote
    exact live
  · split at wrote
    · cases wrote
    · split at wrote
      · cases wrote
      · split at wrote
        · cases Option.some.inj wrote
          obtain ⟨block, here⟩ := live
          by_cases same : a = p
          · exact ⟨_, by rw [same, Function.update_self]⟩
          · exact ⟨block, by rw [Function.update_of_ne same, here]⟩
        · cases wrote

theorem copy_from_user_spares (heap next : Heap) (p a : Ptr) (user : Bytes) (count : UInt64) (ok copied : Bool)
    (copying : copyFromUser heap p user count ok = some (next, copied)) (live : Live heap a) : Live next a := by
  simp only [copyFromUser] at copying
  split at copying
  · cases Option.some.inj copying
    exact live
  · split at copying
    · obtain ⟨wrote, done, same⟩ := Option.map_eq_some_iff.mp copying
      cases same
      exact heap_write_spares heap next p a 0 _ done live
    · cases Option.some.inj copying
      exact live

theorem append_spares (kernel next : Kernel) (writeBuf a : Ptr) (count : UInt64)
    (appended : appendToWorkingEntry kernel writeBuf count = some next)
    (live : Live kernel.heap a) : Live next.heap a := by
  simp only [appendToWorkingEntry] at appended
  split at appended
  · cases appended
  · obtain ⟨heap, wrote, rfl⟩ := Option.map_eq_some_iff.mp appended
    exact heap_write_spares _ _ _ a _ _ wrote live

theorem free_evicted_spares (kernel next : Kernel) (retBuf a : Ptr) (freed : freeEvicted kernel retBuf = some next)
    (live : Live kernel.heap a) (other : a ≠ retBuf) : Live next.heap a := by
  simp only [freeEvicted] at freed
  split at freed
  · cases Option.some.inj freed
    exact live
  · obtain ⟨heap, done, rfl⟩ := Option.map_eq_some_iff.mp freed
    exact kfree_spares _ _ _ a done live other

-- What the locked section leaves of a block that is none of the driver's.
inductive LockedSpares (kernel next : Kernel) (a : Ptr) : Prop where
  | kept (unheld : a ≠ next.dev.workingEntry.buffptr) (buffer : next.dev.buffer = kernel.dev.buffer)
      (live : Live next.heap a)
  | completed (unheld : a ≠ next.dev.workingEntry.buffptr) (entry : AesdBufferEntry) (evicted : Ptr)
      (added : aesdCircularBufferAddEntry kernel.dev.buffer entry = some (next.dev.buffer, evicted))
      (other : a ≠ entry.buffptr)
      (live : a ≠ evicted → Live next.heap a)

theorem write_locked_spares (api : KernelApi) (kernel next : Kernel) (writeBuf a : Ptr) (count : UInt64)
    (newLineFound : Bool) (answer : Answer)
    (ran : writeLocked api kernel writeBuf count newLineFound answer = some (next, true)) (live : Live kernel.heap a)
    (real : zeroOrNullPtr a = false) (other : a ≠ kernel.dev.workingEntry.buffptr) :
    LockedSpares kernel next a := by
  obtain ⟨mid, grown, ran⟩ := Option.bind_eq_some_iff.mp ran
  simp only [reallocWorkingEntry] at grown
  split at grown
  · cases grown
  · rename_i heap q done
    cases Option.some.inj grown
    split at ran
    · cases Option.some.inj ran
    · obtain ⟨appended, wrote, ran⟩ := Option.bind_eq_some_iff.mp ran
      obtain ⟨sameDev, _⟩ := append_ledger _ appended writeBuf count wrote
      obtain ⟨grownLive, notQ⟩ := krealloc_spares api _ _ _ q a _ answer done live real other
      have stillLive := append_spares _ appended writeBuf a count wrote grownLive
      cases newLineFound with
      | false =>
          cases Option.some.inj ran
          refine .kept ?_ ?_ stillLive
          · simpa only [growWorkingEntry, Kernel.setWorking, sameDev] using notQ
          · simp only [growWorkingEntry, Kernel.setWorking, sameDev]
      | true =>
          simp only [if_true] at ran
          obtain ⟨⟨added, evicted⟩, adding, ran⟩ := Option.bind_eq_some_iff.mp ran
          obtain ⟨freed, freeing, ran⟩ := Option.bind_eq_some_iff.mp ran
          cases Option.some.inj ran
          obtain ⟨⟨buffer, ptr⟩, stored, same⟩ := Option.map_eq_some_iff.mp adding
          cases same
          obtain ⟨freedDev, _⟩ := free_evicted_ledger _ freed ptr freeing
          refine .completed (real_not_null a real) ⟨q, kernel.dev.workingEntry.size + count⟩ ptr ?_ notQ
            fun notEvicted => ?_
          · simpa only [resetWorkingEntry, growWorkingEntry, Kernel.setWorking, freedDev, sameDev] using stored
          · exact free_evicted_spares _ freed ptr a freeing stillLive notEvicted

theorem write_spares (api : KernelApi) (kernel : Kernel) (filp : Filp) (buf : Option Bytes) (count : UInt64)
    (fPos : Int64) (env : WriteEnv) (result : CallResult) (a : Ptr)
    (ran : aesdWrite api kernel filp buf count fPos env = some result) (success : 0 ≤ result.ret)
    (live : Live kernel.heap a) (real : zeroOrNullPtr a = false)
    (other : a ≠ kernel.dev.workingEntry.buffptr) : LockedSpares kernel result.kernel a := by
  cases buf with
  | none =>
      cases Option.some.inj ran
      exact absurd success (by decide : ¬ 0 ≤ -eInval)
  | some user =>
      unfold aesdWrite at ran
      generalize allocated : kmalloc api kernel.heap count env.kmalloc = answer at ran
      obtain ⟨heap, w⟩ := answer
      obtain ⟨heapLive, notW⟩ := kmalloc_spares api kernel.heap heap count env.kmalloc w a allocated live real
      dsimp only at ran
      split at ran
      · cases Option.some.inj ran
        exact absurd success (by decide : ¬ 0 ≤ -eNoMem)
      · split at ran
        · cases Option.some.inj ran
          exact absurd success (by decide : ¬ 0 ≤ -ePerm)
        · obtain ⟨⟨copied, ok⟩, copying, ran⟩ := Option.bind_eq_some_iff.mp ran
          have copiedLive := copy_from_user_spares heap copied w a user count _ ok copying heapLive
          split at ran
          · obtain ⟨_, _, ran⟩ := Option.bind_eq_some_iff.mp ran
            cases Option.some.inj ran
            exact absurd success (by decide : ¬ 0 ≤ -eFault)
          · obtain ⟨bytes, _, ran⟩ := Option.bind_eq_some_iff.mp ran
            split at ran
            · obtain ⟨_, _, ran⟩ := Option.bind_eq_some_iff.mp ran
              cases Option.some.inj ran
              exact absurd success (by decide : ¬ 0 ≤ -eRestartSys)
            · obtain ⟨⟨next, stored⟩, locked, ran⟩ := Option.bind_eq_some_iff.mp ran
              obtain ⟨final, freed, ran⟩ := Option.bind_eq_some_iff.mp ran
              cases stored with
              | false =>
                  cases Option.some.inj ran
                  exact absurd success (by decide : ¬ 0 ≤ -eNoMem)
              | true =>
                  cases Option.some.inj ran
                  obtain ⟨freedHeap, done, rfl⟩ := Option.map_eq_some_iff.mp freed
                  cases write_locked_spares api ⟨copied, kernel.dev⟩ next w a _ _ _ locked copiedLive real other with
                  | kept unheld buffer nextLive => exact .kept unheld buffer (kfree_spares _ _ w a done nextLive notW)
                  | completed unheld entry evicted added notEntry nextLive =>
                      exact .completed unheld entry evicted added notEntry fun notEvicted =>
                        kfree_spares _ _ w a done (nextLive notEvicted) notW

-- The blocks the driver has lost: lost lists all that are live and that neither
-- a retained slot nor working_entry points to.
structure Accounts (kernel : Kernel) (lost : List Ptr) : Prop where
  live : ∀ p, Live kernel.heap p ↔
    p ∈ lost ∨ (zeroOrNullPtr p = false ∧ Owned kernel (logicalContent kernel.dev.buffer) p)
  unheld : ∀ p ∈ lost, zeroOrNullPtr p = false ∧ ¬ Owned kernel (logicalContent kernel.dev.buffer) p
  once : lost.Nodup

theorem evicted_held (content : List AesdBufferEntry) (p : Ptr) (real : zeroOrNullPtr p = false)
    (evicted : p = evictedPtr content) :
    ∃ entry ∈ content, p = entry.buffptr := by
  by_cases full : content.length = 10
  · cases content with
    | nil => simp at full
    | cons oldest rest =>
        exact ⟨oldest, by simp, by simpa only [evictedPtr, full, if_true, List.headD_cons] using evicted⟩
  · rw [evicted, evictedPtr, if_neg full] at real
    exact absurd null_reserved (Bool.eq_false_iff.mp real)

-- A block lost before a write stays so.
theorem write_keeps_lost (api : KernelApi) (kernel : Kernel) (content : List AesdBufferEntry) (lines : List Bytes)
    (working : Option Bytes) (filp : Filp) (buf : Option Bytes) (count : UInt64) (fPos : Int64) (env : WriteEnv)
    (result : CallResult) (rep : DevRep api kernel content lines working)
    (ran : aesdWrite api kernel filp buf count fPos env = some result) (success : 0 ≤ result.ret) (p : Ptr)
    (live : Live kernel.heap p) (real : zeroOrNullPtr p = false) (unheld : ¬ Owned kernel content p) :
    Live result.kernel.heap p ∧ ¬ Owned result.kernel (logicalContent result.kernel.dev.buffer) p := by
  have notWorking : p ≠ kernel.dev.workingEntry.buffptr := fun same => unheld (Or.inl same)
  cases write_spares api kernel filp buf count fPos env result p ran success live real notWorking with
  | kept apart buffer stillLive =>
      rw [buffer, ring_rep_content _ content rep.ring]
      refine ⟨stillLive, ?_⟩
      rintro (same | stored)
      · exact apart same
      · exact unheld (Or.inr stored)
  | completed apart entry evicted added other stillLive =>
      obtain ⟨buffer, stored, ring⟩ := add_entry_rep kernel.dev.buffer content entry rep.ring
      obtain ⟨sameBuffer, sameEvicted⟩ := Prod.mk.inj (Option.some.inj (added.symm.trans stored))
      rw [sameBuffer, ring_rep_content _ _ ring]
      refine ⟨stillLive fun same => unheld (Or.inr (evicted_held content p real (same.trans sameEvicted))), ?_⟩
      rintro (same | ⟨held, member, same⟩)
      · exact apart same
      · rcases push_subset content entry held member with old | rfl
        · exact unheld (Or.inr ⟨held, old, same⟩)
        · exact other same

-- A block that is live after a write was lost before it or is held now.
theorem write_loses_none (api : KernelApi) (kernel : Kernel) (content : List AesdBufferEntry) (lines : List Bytes)
    (working : Option Bytes) (filp : Filp) (buf : Option Bytes) (count : UInt64) (fPos : Int64) (env : WriteEnv)
    (result : CallResult) (lost : List Ptr) (rep : DevRep api kernel content lines working)
    (ran : aesdWrite api kernel filp buf count fPos env = some result) (success : 0 ≤ result.ret)
    (before : ∀ p, Live kernel.heap p → p ∈ lost ∨ (zeroOrNullPtr p = false ∧ Owned kernel content p)) (p : Ptr)
    (live : Live result.kernel.heap p) :
    p ∈ lost ∨ (zeroOrNullPtr p = false ∧ Owned result.kernel (logicalContent result.kernel.dev.buffer) p) := by
  obtain ⟨w, copied, next, fresh, ledger, sameDev, freed⟩ :=
    write_ledger api kernel filp buf count fPos env result ran success
  have old : Live copied p → ¬ Held kernel.dev.workingEntry.buffptr p →
      p ∈ lost ∨ (zeroOrNullPtr p = false ∧ ∃ entry ∈ content, p = entry.buffptr) := by
    intro here notWorking
    rcases before p ((fresh p here).resolve_right (freed p live).2) with gone | ⟨real, same | stored⟩
    · exact Or.inl gone
    · exact absurd ⟨same, real⟩ notWorking
    · exact Or.inr ⟨real, stored⟩
  rw [sameDev]
  cases ledger with
  | kept q workingEq buffer moved =>
      rw [buffer, ring_rep_content _ content rep.ring]
      rcases moved p (freed p live).1 with ⟨here, notWorking⟩ | ⟨same, real⟩
      · exact (old here notWorking).imp_right fun stored => ⟨stored.1, Or.inr stored.2⟩
      · exact Or.inr ⟨real, Or.inl (by rw [sameDev, workingEq, same])⟩
  | completed entry evicted added moved =>
      obtain ⟨buffer, stored, ring⟩ := add_entry_rep kernel.dev.buffer content entry rep.ring
      obtain ⟨sameBuffer, sameEvicted⟩ := Prod.mk.inj (Option.some.inj (added.symm.trans stored))
      rw [sameBuffer, ring_rep_content _ _ ring]
      obtain ⟨origin, stays⟩ := moved p (freed p live).1
      rcases origin with ⟨here, notWorking⟩ | ⟨same, real⟩
      · refine (old here notWorking).imp_right ?_
        rintro ⟨real, other, member, same⟩
        refine ⟨real, Or.inr ⟨other, push_keeps content entry other rep.ring.window.bounded member ?_, same⟩⟩
        intro gone
        exact stays ⟨by rw [same, gone, sameEvicted], real⟩
      · have last : entry ∈ push 10 content entry := List.mem_of_getLast? (push_last 10 content entry (by decide))
        exact Or.inr ⟨real, Or.inr ⟨entry, last, same⟩⟩

theorem write_accounts (api : KernelApi) (kernel : Kernel) (content nextContent : List AesdBufferEntry)
    (lines nextLines : List Bytes) (working nextWorking : Option Bytes) (filp : Filp) (buf : Option Bytes)
    (count : UInt64) (fPos : Int64) (env : WriteEnv) (result : CallResult) (lost : List Ptr)
    (rep : DevRep api kernel content lines working)
    (nextRep : DevRep api result.kernel nextContent nextLines nextWorking)
    (ran : aesdWrite api kernel filp buf count fPos env = some result) (success : 0 ≤ result.ret)
    (before : Accounts kernel lost) : Accounts result.kernel lost := by
  have kept : ∀ p ∈ lost, Live result.kernel.heap p ∧
      ¬ Owned result.kernel (logicalContent result.kernel.dev.buffer) p := by
    intro p member
    obtain ⟨real, unheld⟩ := before.unheld p member
    rw [ring_rep_content _ content rep.ring] at unheld
    exact write_keeps_lost api kernel content lines working filp buf count fPos env result rep ran success p
      ((before.live p).mpr (Or.inl member)) real unheld
  refine ⟨fun p => ⟨fun live => ?_, ?_⟩, fun p member => ⟨(before.unheld p member).1, (kept p member).2⟩, before.once⟩
  · refine write_loses_none api kernel content lines working filp buf count fPos env result lost rep
      ran success ?_ p live
    intro p live
    have held := (before.live p).mp live
    rwa [ring_rep_content _ content rep.ring] at held
  · rintro (member | ⟨real, owned⟩)
    · exact (kept p member).1
    · rw [ring_rep_content _ nextContent nextRep.ring] at owned
      exact owned_live api result.kernel nextContent nextLines nextWorking nextRep p owned real

-- The block that working_entry loses.
def droppedBlock (kernel : Kernel) : List Ptr :=
  if zeroOrNullPtr kernel.dev.workingEntry.buffptr then [] else [kernel.dev.workingEntry.buffptr]

theorem dropped_accounts (api : KernelApi) (kernel : Kernel) (content : List AesdBufferEntry) (lines : List Bytes)
    (working : Option Bytes) (lost : List Ptr) (rep : DevRep api kernel content lines working)
    (before : Accounts kernel lost) :
    Accounts (kernel.setWorking { kernel.dev.workingEntry with buffptr := nullPtr }) (lost ++ droppedBlock kernel) := by
  have slots := ring_rep_content _ content rep.ring
  have accounted := before.live
  have unheld := before.unheld
  simp only [slots] at accounted unheld
  have stored : ∀ p, zeroOrNullPtr p = false →
      (Owned (kernel.setWorking { kernel.dev.workingEntry with buffptr := nullPtr }) content p ↔
        ∃ entry ∈ content, p = entry.buffptr) := by
    intro p real
    exact ⟨fun owned => owned.resolve_left (real_not_null p real), Or.inr⟩
  have dropped : ∀ p, p ∈ droppedBlock kernel ↔ zeroOrNullPtr p = false ∧ p = kernel.dev.workingEntry.buffptr := by
    intro p
    rw [droppedBlock]
    cases real : zeroOrNullPtr kernel.dev.workingEntry.buffptr with
    | true =>
        refine ⟨fun member => (by cases member), ?_⟩
        rintro ⟨realP, rfl⟩
        rw [real] at realP
        cases realP
    | false =>
        refine ⟨fun member => ?_, fun same => List.mem_singleton.mpr same.2⟩
        obtain rfl := List.mem_singleton.mp member
        exact ⟨real, rfl⟩
  have apart : ∀ p ∈ droppedBlock kernel, ¬ ∃ entry ∈ content, p = entry.buffptr := by
    rintro p member ⟨entry, inContent, same⟩
    exact rep.apart entry inContent (same.symm.trans ((dropped p).mp member).2)
  refine ⟨fun p => ?_, fun p member => ?_, ?_⟩
  · rw [show (kernel.setWorking { kernel.dev.workingEntry with buffptr := nullPtr }).heap = kernel.heap from rfl,
      accounted p,
      show (kernel.setWorking { kernel.dev.workingEntry with buffptr := nullPtr }).dev.buffer =
        kernel.dev.buffer from rfl, slots,
      List.mem_append, dropped p]
    constructor
    · rintro (member | ⟨real, same | inSlots⟩)
      · exact Or.inl (Or.inl member)
      · exact Or.inl (Or.inr ⟨real, same⟩)
      · exact Or.inr ⟨real, Or.inr inSlots⟩
    · rintro ((member | ⟨real, same⟩) | ⟨real, owned⟩)
      · exact Or.inl member
      · exact Or.inr ⟨real, Or.inl same⟩
      · exact Or.inr ⟨real, Or.inr ((stored p real).mp owned)⟩
  · rw [show (kernel.setWorking { kernel.dev.workingEntry with buffptr := nullPtr }).dev.buffer =
      kernel.dev.buffer from rfl, slots]
    rcases List.mem_append.mp member with old | fresh
    · obtain ⟨real, notOwned⟩ := unheld p old
      exact ⟨real, fun owned => notOwned (Or.inr ((stored p real).mp owned))⟩
    · have real := ((dropped p).mp fresh).1
      exact ⟨real, fun owned => apart p fresh ((stored p real).mp owned)⟩
  · refine List.nodup_append.mpr ⟨before.once, ?_, ?_⟩
    · rw [droppedBlock]
      split <;> simp
    · rintro p old q fresh rfl
      exact (unheld p old).2 (Or.inl ((dropped p).mp fresh).2)

-- The blocks that a call loses, on a file that aesd_open has set up.
def lostBy (api : KernelApi) (event : Event) : List Ptr :=
  match event.call with
  | .write buf count env =>
      if kreallocRefused api event.kernel event.filp buf count env then droppedBlock event.kernel else []
  | _ => []

theorem call_accounts (api : KernelApi) (kernel : Kernel) (content : List AesdBufferEntry) (lines : List Bytes)
    (working : Option Bytes) (filp : Filp) (call : DriverCall) (result : CallResult) (lost : List Ptr)
    (rep : DevRep api kernel content lines working) (opened : filp.privateData = true)
    (ran : driverCall api kernel filp call = some result) (before : Accounts kernel lost) :
    Accounts result.kernel (lost ++ lostBy api ⟨kernel, filp, call, result⟩) := by
  obtain ⟨found, foundRan, effect⟩ := driver_call_effect api kernel content lines working filp call rep
  cases Option.some.inj (ran.symm.trans foundRan)
  cases effect with
  | other _ _ silent same =>
      have nothing : lostBy api ⟨kernel, filp, call, result⟩ = [] := by
        cases call with
        | write buf count env => exact absurd rfl (silent buf count env)
        | read buf count env => rfl
        | llseek off whence lock => rfl
        | ioctl cmd seekTo env => rfl
      rw [same, nothing, List.append_nil]
      exact before
  | write buf count env _ effect =>
      have lostIs : lostBy api ⟨kernel, filp, .write buf count env, result⟩ =
          if kreallocRefused api kernel filp buf count env then droppedBlock kernel else [] := rfl
      rw [lostIs]
      generalize kreallocRefused api kernel filp buf count env = refused at effect
      cases effect with
      | rejected ret negative => simpa using before
      | leaked heap unopened kept =>
          rw [opened] at unopened
          cases unopened
      | refused => simpa using dropped_accounts api kernel content lines working lost rep before
      | kept user next nextContent given mapped fits absent nextRep =>
          simpa using write_accounts api kernel content nextContent lines _ working _ filp buf count filp.fPos env
            _ lost rep nextRep ran (count_nonnegative api count fits) before
      | completed user next nextContent given mapped fits present nextRep =>
          simpa using write_accounts api kernel content nextContent lines _ working _ filp buf count filp.fPos env
            _ lost rep nextRep ran (count_nonnegative api count fits) before

end AesdChar
