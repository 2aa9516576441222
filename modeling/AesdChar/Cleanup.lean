import AesdChar.DriverRun

set_option autoImplicit false

namespace AesdChar

open CyclicQueue HeapStore

def freeEntries : Kernel → List AesdBufferEntry → Option Kernel
  | kernel, [] => some kernel
  | kernel, entry :: rest =>
      match kernel.free entry.buffptr with
      | none => none
      | some next => freeEntries next rest

-- The pointer of working_entry is overwritten before anything is freed. none:
-- kfree of an address that is not live.
def aesdCleanupModule (kernel : Kernel) : Option Kernel :=
  freeEntries (kernel.setWorking { kernel.dev.workingEntry with buffptr := nullPtr }) kernel.dev.buffer.entry.toList

def Inside (heap : Heap) (p : Ptr) (offset count : Nat) : Prop :=
  zeroOrNullPtr p = false ∧ ∃ block, heap p = some block ∧ offset + count ≤ block.length

-- The operations of the kernel's memory are undefined exactly where a pointer
-- is not live or an access leaves its block.
structure MemoryChecked (api : KernelApi) : Prop where
  kfree : ∀ heap p, kfree heap p = none ↔ zeroOrNullPtr p = false ∧ heap p = none
  krealloc : ∀ heap p size answer, krealloc api heap p size answer = none ↔ zeroOrNullPtr p = false ∧ heap p = none
  read : ∀ heap p offset count, heapRead heap p offset count = none ↔ count ≠ 0 ∧ ¬ Inside heap p offset count
  write : ∀ heap p offset bytes, heapWrite heap p offset bytes = none ↔ bytes ≠ [] ∧ ¬ Inside heap p offset bytes.length

theorem kfree_checked (heap : Heap) (p : Ptr) : kfree heap p = none ↔ zeroOrNullPtr p = false ∧ heap p = none := by
  cases real : zeroOrNullPtr p <;> cases live : heap p <;> simp [kfree, real, live]

theorem krealloc_checked (api : KernelApi) (heap : Heap) (p : Ptr) (size : UInt64) (answer : Answer) :
    krealloc api heap p size answer = none ↔ zeroOrNullPtr p = false ∧ heap p = none := by
  cases real : zeroOrNullPtr p with
  | true => simp [krealloc, real]
  | false =>
      cases live : heap p with
      | none => simp [krealloc, real, live]
      | some old =>
          obtain ⟨result, done, _⟩ := krealloc_cases api heap p old size answer real live
          simp [done]

theorem heap_read_checked (heap : Heap) (p : Ptr) (offset count : Nat) :
    heapRead heap p offset count = none ↔ count ≠ 0 ∧ ¬ Inside heap p offset count := by
  by_cases zero : count = 0
  · simp [heapRead, zero]
  · cases real : zeroOrNullPtr p <;> cases live : heap p <;> simp [heapRead, zero, real, live, Inside]

theorem heap_write_checked (heap : Heap) (p : Ptr) (offset : Nat) (bytes : Bytes) :
    heapWrite heap p offset bytes = none ↔ bytes ≠ [] ∧ ¬ Inside heap p offset bytes.length := by
  by_cases empty : bytes = []
  · simp [heapWrite, empty]
  · cases real : zeroOrNullPtr p <;> cases live : heap p <;> simp [heapWrite, empty, real, live, Inside]

theorem memory_checked (api : KernelApi) : MemoryChecked api :=
  ⟨kfree_checked, krealloc_checked api, heap_read_checked, heap_write_checked⟩

def DistinctBlocks (entries : List AesdBufferEntry) : Prop :=
  entries.Pairwise fun one two => zeroOrNullPtr one.buffptr = false → one.buffptr ≠ two.buffptr

def heldEntries (kernel : Kernel) : List AesdBufferEntry := kernel.dev.buffer.entry.toList ++ [kernel.dev.workingEntry]

structure PointersSound (kernel : Kernel) : Prop where
  live : ∀ entry ∈ heldEntries kernel, zeroOrNullPtr entry.buffptr = false →
    ∃ block, kernel.heap entry.buffptr = some block
  distinct : DistinctBlocks (heldEntries kernel)
  used : ∀ entry ∈ logicalContent kernel.dev.buffer, zeroOrNullPtr entry.buffptr = false ∧
    ∃ block, kernel.heap entry.buffptr = some block ∧ entry.size.toNat ≤ block.length

theorem free_entries (kernel : Kernel) (entries : List AesdBufferEntry) (distinct : DistinctBlocks entries)
    (live : ∀ entry ∈ entries, zeroOrNullPtr entry.buffptr = false → ∃ block, kernel.heap entry.buffptr = some block) :
    ∃ final, freeEntries kernel entries = some final ∧
      (∀ entry ∈ entries, zeroOrNullPtr entry.buffptr = false → final.heap entry.buffptr = none) ∧
      ∀ p, (∀ entry ∈ entries, zeroOrNullPtr entry.buffptr = false → entry.buffptr ≠ p) →
        final.heap p = kernel.heap p := by
  induction entries generalizing kernel with
  | nil => exact ⟨kernel, rfl, by simp, fun _ _ => rfl⟩
  | cons entry rest ih =>
      obtain ⟨apart, later⟩ := List.pairwise_cons.mp distinct
      cases real : zeroOrNullPtr entry.buffptr with
      | true =>
          obtain ⟨final, freed, gone, others⟩ := ih kernel later fun other member =>
            live other (List.mem_cons_of_mem _ member)
          refine ⟨final, ?_, ?_, fun p clear => others p fun other member =>
            clear other (List.mem_cons_of_mem _ member)⟩
          · simp only [freeEntries, Kernel.free, kfree_reserved kernel.heap _ real, Option.map_some, freed]
          · intro other member otherReal
            rcases List.mem_cons.mp member with rfl | member
            · rw [real] at otherReal
              cases otherReal
            · exact gone other member otherReal
      | false =>
          obtain ⟨block, here⟩ := live entry (by simp) real
          have stillLive : ∀ other ∈ rest, zeroOrNullPtr other.buffptr = false →
              ∃ block, Function.update kernel.heap entry.buffptr none other.buffptr = some block := by
            intro other member otherReal
            rw [Function.update_of_ne (Ne.symm (apart other member real))]
            exact live other (List.mem_cons_of_mem _ member) otherReal
          obtain ⟨final, freed, gone, others⟩ :=
            ih ⟨Function.update kernel.heap entry.buffptr none, kernel.dev⟩ later stillLive
          refine ⟨final, ?_, ?_, ?_⟩
          · simp only [freeEntries, Kernel.free, kfree_live kernel.heap _ block real here, Option.map_some, freed]
          · intro other member otherReal
            rcases List.mem_cons.mp member with rfl | member
            · rw [others _ fun later inRest _ => Ne.symm (apart later inRest real)]
              exact Function.update_self ..
            · exact gone other member otherReal
          · intro p clear
            rw [others p fun other member => clear other (List.mem_cons_of_mem _ member)]
            exact Function.update_of_ne (Ne.symm (clear entry (by simp) real)) _ _

theorem distinct_blocks_perm (entries others : List AesdBufferEntry) (perm : entries.Perm others)
    (distinct : DistinctBlocks others) : DistinctBlocks entries := by
  refine (perm.pairwise_iff ?_).mpr distinct
  intro one two apart real same
  exact apart (same ▸ real) same.symm

theorem distinct_blocks_slots (content : List AesdBufferEntry) (unused : Nat)
    (distinct : (content.map AesdBufferEntry.buffptr).Nodup) :
    DistinctBlocks (content ++ List.replicate unused zeroEntry) := by
  rw [DistinctBlocks, List.pairwise_append]
  refine ⟨?_, ?_, ?_⟩
  · refine (List.pairwise_map.mp distinct).imp ?_
    intro one two apart _
    exact apart
  · refine List.pairwise_replicate.mpr (Or.inr fun real => ?_)
    exact absurd null_reserved (Bool.eq_false_iff.mp real)
  · intro entry member zero blank real same
    rw [List.eq_of_mem_replicate blank] at same
    rw [same] at real
    exact absurd null_reserved (Bool.eq_false_iff.mp real)

theorem slots_live (api : KernelApi) (kernel : Kernel) (content : List AesdBufferEntry) (lines : List Bytes)
    (working : Option Bytes) (rep : DevRep api kernel content lines working) (entry : AesdBufferEntry)
    (member : entry ∈ kernel.dev.buffer.entry.toList)
    (real : zeroOrNullPtr entry.buffptr = false) : entry ∈ content := by
  rcases List.mem_append.mp ((ring_rep_slots _ content rep.ring).mem_iff.mp member) with used | blank
  · exact used
  · rw [List.eq_of_mem_replicate blank] at real
    exact absurd null_reserved (Bool.eq_false_iff.mp real)

theorem dev_rep_pointers (api : KernelApi) (kernel : Kernel) (content : List AesdBufferEntry) (lines : List Bytes)
    (working : Option Bytes) (rep : DevRep api kernel content lines working) : PointersSound kernel := by
  have slots := ring_rep_slots _ content rep.ring
  refine ⟨?_, ?_, ?_⟩
  · intro entry member real
    rcases List.mem_append.mp member with slot | working
    · exact owned_live api kernel content lines _ rep _
        (Or.inr ⟨entry, slots_live api kernel content lines _ rep entry slot real, rfl⟩) real
    · rw [List.mem_singleton.mp working] at real ⊢
      exact owned_live api kernel content lines _ rep _ (Or.inl rfl) real
  · rw [DistinctBlocks, heldEntries, List.pairwise_append]
    refine ⟨distinct_blocks_perm _ _ slots (distinct_blocks_slots content _ rep.distinct),
      List.pairwise_singleton _ _, ?_⟩
    intro entry member other working real
    rw [List.mem_singleton.mp working]
    exact rep.apart entry (slots_live api kernel content lines _ rep entry member real)
  · intro entry member
    rw [ring_rep_content _ content rep.ring] at member
    obtain ⟨line, _, block⟩ := stored_member api kernel.heap content lines rep.stored entry member
    exact ⟨block.real, line, block.live, Nat.le_of_eq block.size⟩

theorem cleanup_frees (api : KernelApi) (kernel : Kernel) (content : List AesdBufferEntry) (lines : List Bytes)
    (working : Option Bytes) (rep : DevRep api kernel content lines working) :
    ∃ final, aesdCleanupModule kernel = some final ∧ (∀ entry ∈ content, final.heap entry.buffptr = none) ∧
      ∀ p, (∀ entry ∈ content, entry.buffptr ≠ p) → final.heap p = kernel.heap p := by
  have sound := dev_rep_pointers api kernel content lines working rep
  have slots := ring_rep_slots _ content rep.ring
  obtain ⟨final, freed, gone, others⟩ := free_entries
    (kernel.setWorking { kernel.dev.workingEntry with buffptr := nullPtr }) kernel.dev.buffer.entry.toList
    (List.pairwise_append.mp sound.distinct).1 (fun entry member => sound.live entry (List.mem_append_left _ member))
  refine ⟨final, freed, ?_, ?_⟩
  · intro entry member
    obtain ⟨_, _, block⟩ := stored_member api kernel.heap content lines rep.stored entry member
    exact gone entry (slots.mem_iff.mpr (List.mem_append_left _ member)) block.real
  · intro p clear
    exact others p fun entry member real =>
      clear entry (slots_live api kernel content lines working rep entry member real)

theorem run_calls_total (api : KernelApi) (calls : List (Filp × DriverCall)) (earlier : List Event) (kernel : Kernel)
    (run : Run api earlier kernel) :
    ∃ events final, runCalls api kernel calls = some (events, final) ∧ Run api (earlier ++ events) final ∧
      ∀ event ∈ events, (∃ before, Run api before event.kernel) ∧ ∃ after, Run api after event.result.kernel := by
  induction calls generalizing earlier kernel with
  | nil => exact ⟨[], kernel, rfl, by simpa using run, by simp⟩
  | cons head rest ih =>
      obtain ⟨filp, call⟩ := head
      obtain ⟨result, ran⟩ := run_call_safe api earlier kernel filp call run
      have next := Run.called earlier kernel filp call result run ran
      obtain ⟨events, final, later, reached, each⟩ := ih _ result.kernel next
      refine ⟨⟨kernel, filp, call, result⟩ :: events,
        final, by simp only [runCalls, ran, later], by simpa using reached, ?_⟩
      intro event member
      rcases List.mem_cons.mp member with rfl | inRest
      · exact ⟨⟨_, run⟩, _, next⟩
      · exact each event inRest

theorem run_pointers (api : KernelApi) (events : List Event) (kernel : Kernel) (run : Run api events kernel) :
    PointersSound kernel := by
  obtain ⟨content, working, rep⟩ := run_rep api events kernel run
  exact dev_rep_pointers api kernel content _ working rep

/-- No operation is undefined, from the load of the module to its unload. -/
theorem pointers_never_dangle (api : KernelApi) (calls : List (Filp × DriverCall)) :
    MemoryChecked api ∧ ∃ events kernel final, runCalls api loadedModule calls = some (events, kernel) ∧
      (∀ event ∈ events, PointersSound event.kernel ∧ PointersSound event.result.kernel) ∧ PointersSound kernel ∧
      aesdCleanupModule kernel = some final := by
  obtain ⟨events, kernel, ran, run, each⟩ := run_calls_total api calls [] loadedModule .loaded
  obtain ⟨content, working, rep⟩ := run_rep api _ kernel run
  obtain ⟨final, freed, _⟩ := cleanup_frees api kernel content _ working rep
  refine ⟨memory_checked api, events, kernel, final, ran, ?_, run_pointers api _ kernel run, freed⟩
  intro event member
  obtain ⟨⟨_, before⟩, _, after⟩ := each event member
  exact ⟨run_pointers api _ _ before, run_pointers api _ _ after⟩

end AesdChar
