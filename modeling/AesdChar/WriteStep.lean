import AesdChar.DeviceRep
import AesdChar.Library.Framing

set_option autoImplicit false

namespace AesdChar

open CyclicQueue Framing HeapStore

-- The bytes in front of the next write: the pending line, or what a fresh
-- block happened to hold where a lost line used to be.
def baseBytes (kernel : Kernel) (working : Option Bytes) (answer : Answer) : Bytes :=
  working.getD (staleBytes answer 0 kernel.dev.workingEntry.size.toNat)

inductive WorkingRealloc (api : KernelApi) (kernel : Kernel) (base : Bytes) (count : Nat) : Heap → Ptr → Prop where
  | refused : WorkingRealloc api kernel base count kernel.heap nullPtr
  | empty (reserved : zeroOrNullPtr kernel.dev.workingEntry.buffptr = true) (zero : base = []) (none : count = 0) :
      WorkingRealloc api kernel base count kernel.heap zeroSizePtr
  | block (heap : Heap) (q : Ptr) (bytes : Bytes) (real : zeroOrNullPtr q = false) (live : heap q = some bytes)
      (length : bytes.length = base.length + count) (fits : bytes.length ≤ api.kmallocMaxSize)
      (positive : 0 < bytes.length) (kept : bytes.take base.length = base)
      (others : ∀ p, p ≠ q → p ≠ kernel.dev.workingEntry.buffptr → heap p = kernel.heap p)
      (origin : q = kernel.dev.workingEntry.buffptr ∨ kernel.heap q = none) :
      WorkingRealloc api kernel base count heap q

theorem size_add_exact (api : KernelApi) (size count : UInt64) (sizeFits : size.toNat ≤ api.kmallocMaxSize)
    (countFits : count.toNat ≤ api.kmallocMaxSize) : (size + count).toNat = size.toNat + count.toNat := by
  have addressable := api.addressable
  rw [UInt64.toNat_add]
  omega

theorem base_length (api : KernelApi) (kernel : Kernel) (working : Option Bytes) (answer : Answer)
    (rep : WorkingRep api kernel.heap kernel.dev.workingEntry working) :
    (baseBytes kernel working answer).length = kernel.dev.workingEntry.size.toNat := by
  generalize entryEq : kernel.dev.workingEntry = entry at rep
  cases rep with
  | empty reserved zero => simp [baseBytes, zero]
  | pending line block => simp [baseBytes, block.size]
  | lost gone claimed fits => simp [baseBytes, entryEq]

theorem working_size_fits (api : KernelApi) (heap : Heap) (entry : AesdBufferEntry) (working : Option Bytes)
    (rep : WorkingRep api heap entry working) : entry.size.toNat ≤ api.kmallocMaxSize := by
  cases rep with
  | empty reserved zero => simp [zero]
  | pending line block => rw [block.size]; exact block.fits
  | lost gone claimed fits => exact fits

theorem base_reserved (api : KernelApi) (kernel : Kernel) (working : Option Bytes) (answer : Answer)
    (reserved : zeroOrNullPtr kernel.dev.workingEntry.buffptr = true)
    (rep : WorkingRep api kernel.heap kernel.dev.workingEntry working) :
    baseBytes kernel working answer = staleBytes answer 0 kernel.dev.workingEntry.size.toNat := by
  generalize entryEq : kernel.dev.workingEntry = entry at rep reserved
  cases rep with
  | empty _ zero => simp [baseBytes, zero, staleBytes]
  | pending line block => exact absurd reserved (by simp [block.real])
  | lost gone claimed fits => simp [baseBytes, entryEq]

theorem realloc_reserved (api : KernelApi) (kernel : Kernel) (working : Option Bytes) (count : UInt64) (answer : Answer)
    (reserved : zeroOrNullPtr kernel.dev.workingEntry.buffptr = true)
    (rep : WorkingRep api kernel.heap kernel.dev.workingEntry working)
    (countFits : count.toNat ≤ api.kmallocMaxSize) :
    WorkingRealloc api kernel (baseBytes kernel working answer) count.toNat
      (kmalloc api kernel.heap (kernel.dev.workingEntry.size + count) answer).1
      (kmalloc api kernel.heap (kernel.dev.workingEntry.size + count) answer).2 := by
  have total := size_add_exact api _ count (working_size_fits api _ _ working rep) countFits
  have length := base_length api kernel working answer rep
  have cases := kmalloc_cases api kernel.heap (kernel.dev.workingEntry.size + count) answer
  generalize resultEq : kmalloc api kernel.heap (kernel.dev.workingEntry.size + count) answer = result at cases
  cases cases with
  | refused => exact .refused
  | zero empty =>
      rw [empty] at total
      have none : count.toNat = 0 := by simp at total; omega
      exact .empty reserved (List.eq_nil_of_length_eq_zero (by simp at total; omega)) none
  | block p fresh positive fits =>
      obtain ⟨real, absent⟩ := fresh_address kernel.heap p fresh
      have kept : (staleBytes answer 0 (kernel.dev.workingEntry.size + count).toNat).take
          (baseBytes kernel working answer).length = baseBytes kernel working answer := by
        rw [length, total, stale_take answer _ _ (by omega), base_reserved api kernel working answer reserved rep]
      have some : 0 < (kernel.dev.workingEntry.size + count).toNat := by
        rcases Nat.eq_zero_or_pos (kernel.dev.workingEntry.size + count).toNat with zero | some
        · exact absurd (UInt64.toNat_inj.mp zero) positive
        · exact some
      exact .block _ p _ real (Function.update_self ..) (by simp [total, length]) (by simpa using fits)
        (by simpa using some)
        kept (fun other different _ => Function.update_of_ne different _ _) (Or.inr absent)

theorem realloc_pending (api : KernelApi) (kernel : Kernel) (line : Bytes) (count : UInt64) (answer : Answer)
    (block : BlockRep api kernel.heap kernel.dev.workingEntry line) (countFits : count.toNat ≤ api.kmallocMaxSize) :
    ∃ heap q, krealloc api kernel.heap kernel.dev.workingEntry.buffptr (kernel.dev.workingEntry.size + count) answer =
        some (heap, q) ∧ WorkingRealloc api kernel line count.toNat heap q := by
  have total := size_add_exact api _ count (working_size_fits api _ _ _ (.pending line block)) countFits
  have positive := List.length_pos_of_ne_nil block.nonempty
  have grows : line.length ≤ (kernel.dev.workingEntry.size + count).toNat := by rw [total, block.size]; omega
  have length := resized_length line (kernel.dev.workingEntry.size + count).toNat answer
  have kept := resized_take line (kernel.dev.workingEntry.size + count).toNat answer grows
  obtain ⟨⟨heap, q⟩, done, cases⟩ := krealloc_cases api kernel.heap kernel.dev.workingEntry.buffptr line
    (kernel.dev.workingEntry.size + count) answer block.real block.live
  refine ⟨heap, q, done, ?_⟩
  cases cases with
  | refused => exact .refused
  | released empty =>
      rw [empty, block.size] at total
      simp at total
      omega
  | kept fits =>
      exact .block _ _ _ block.real (Function.update_self ..) (by rw [length, total, block.size])
        (by rw [length]; exact fits)
        (by omega) kept (fun other different _ => Function.update_of_ne different _ _) (Or.inl rfl)
  | moved q fresh fits =>
      obtain ⟨real, absent⟩ := fresh_address kernel.heap q fresh
      refine .block _ q _ real (Function.update_self ..) (by rw [length, total, block.size])
        (by rw [length]; exact fits)
        (by omega) kept (fun other different old => ?_) (Or.inr absent)
      rw [Function.update_of_ne different, Function.update_of_ne old]

theorem realloc_working (api : KernelApi) (kernel : Kernel) (working : Option Bytes) (count : UInt64) (answer : Answer)
    (rep : WorkingRep api kernel.heap kernel.dev.workingEntry working) (countFits : count.toNat ≤ api.kmallocMaxSize) :
    ∃ heap q, krealloc api kernel.heap kernel.dev.workingEntry.buffptr (kernel.dev.workingEntry.size + count) answer =
        some (heap, q) ∧ WorkingRealloc api kernel (baseBytes kernel working answer) count.toNat heap q := by
  by_cases reserved : zeroOrNullPtr kernel.dev.workingEntry.buffptr = true
  · exact ⟨_, _, krealloc_reserved api kernel.heap _ _ answer reserved,
      realloc_reserved api kernel working count answer reserved rep countFits⟩
  · generalize entryEq : kernel.dev.workingEntry = entry at rep
    cases rep with
    | empty hidden zero => rw [entryEq] at reserved; exact absurd hidden reserved
    | lost gone claimed fits => rw [entryEq, gone] at reserved; exact absurd rfl reserved
    | pending line block =>
        subst entryEq
        exact realloc_pending api kernel line count answer block countFits

structure WriteBuf (kernel : Kernel) (content : List AesdBufferEntry) (writeBuf : Ptr) (data : Bytes) : Prop where
  read : heapRead kernel.heap writeBuf 0 data.length = some data
  live : zeroOrNullPtr writeBuf = false → ∃ block, kernel.heap writeBuf = some block
  foreign : zeroOrNullPtr writeBuf = false → ¬ Owned kernel content writeBuf
  empty : zeroOrNullPtr writeBuf = true → data = []

-- What the locked section leaves, while the copy of the user's bytes is still
-- in its block.
structure Locked (api : KernelApi) (kernel next : Kernel) (content : List AesdBufferEntry) (lines : List Bytes)
    (working : Option Bytes) (writeBuf : Ptr) : Prop where
  rep : DevRep api next content lines working
  untouched : zeroOrNullPtr writeBuf = false → next.heap writeBuf = kernel.heap writeBuf
  foreign : zeroOrNullPtr writeBuf = false → ¬ Owned next content writeBuf

theorem append_to_block (api : KernelApi) (kernel : Kernel) (content : List AesdBufferEntry) (lines : List Bytes)
    (working : Option Bytes) (writeBuf : Ptr) (data base : Bytes) (count : UInt64) (heap : Heap) (q : Ptr)
    (bytes : Bytes) (rep : DevRep api kernel content lines working) (buf : WriteBuf kernel content writeBuf data)
    (countEq : count.toNat = data.length) (baseEq : base.length = kernel.dev.workingEntry.size.toNat)
    (sum : (kernel.dev.workingEntry.size + count).toNat = base.length + data.length) (real : zeroOrNullPtr q = false)
    (live : heap q = some bytes) (length : bytes.length = base.length + data.length)
    (fits : bytes.length ≤ api.kmallocMaxSize) (positive : 0 < bytes.length) (kept : bytes.take base.length = base)
    (others : ∀ p, p ≠ q → p ≠ kernel.dev.workingEntry.buffptr → heap p = kernel.heap p)
    (origin : q = kernel.dev.workingEntry.buffptr ∨ kernel.heap q = none) :
    ∃ next, (appendToWorkingEntry (Kernel.setWorking ⟨heap, kernel.dev⟩ ⟨q, kernel.dev.workingEntry.size⟩)
      writeBuf count).map
        (fun appended => growWorkingEntry appended count) = some next ∧
      Locked api kernel next content lines (some (base ++ data)) writeBuf := by
  have notQ : ∀ p, p ≠ kernel.dev.workingEntry.buffptr → (∃ block, kernel.heap p = some block) → p ≠ q := by
    rintro p different ⟨block, here⟩ rfl
    rcases origin with same | absent
    · exact different same
    · rw [absent] at here; cases here
  have bufKept : zeroOrNullPtr writeBuf = false → writeBuf ≠ q ∧ heap writeBuf = kernel.heap writeBuf := by
    intro bufReal
    have apart : writeBuf ≠ kernel.dev.workingEntry.buffptr := fun same => buf.foreign bufReal (Or.inl same)
    have different := notQ writeBuf apart (buf.live bufReal)
    exact ⟨different, others writeBuf different apart⟩
  have read : heapRead heap writeBuf 0 count.toNat = some data := by
    by_cases bufReal : zeroOrNullPtr writeBuf = false
    · have read := buf.read
      simp only [heapRead, (bufKept bufReal).2, countEq] at read ⊢
      exact read
    · have none := buf.empty (by simpa using bufReal)
      simp [heapRead, countEq, none]
  have write : heapWrite heap q kernel.dev.workingEntry.size.toNat data =
      some (Function.update heap q (some (base ++ data))) := by
    rw [heap_write_end heap q bytes data _ real live (by omega), ← baseEq, kept]
  let next : Kernel := ⟨Function.update heap q (some (base ++ data)),
    { kernel.dev with workingEntry := ⟨q, kernel.dev.workingEntry.size + count⟩ }⟩
  have outside : ∀ p, p ≠ kernel.dev.workingEntry.buffptr → (∃ block, kernel.heap p = some block) →
      next.heap p = kernel.heap p := by
    intro p apart found
    have different := notQ p apart found
    exact (Function.update_of_ne different _ _).trans (others p different apart)
  have storedLive : ∀ entry ∈ content, ∃ block, kernel.heap entry.buffptr = some block := by
    intro entry member
    obtain ⟨line, _, block⟩ := stored_member api kernel.heap content lines rep.stored entry member
    exact ⟨line, block.live⟩
  refine ⟨next, ?_, ⟨⟨rep.ring, ?_, ?_, rep.distinct, ?_⟩, ?_, ?_⟩⟩
  · simp only [appendToWorkingEntry, Kernel.setWorking, read, write, Option.map_some, growWorkingEntry, next]
  · exact stored_agree api kernel.heap next.heap content lines
      (fun entry member => outside _ (rep.apart entry member) (storedLive entry member)) rep.stored
  · refine .pending _ ⟨real, Function.update_self .., by simpa [next] using sum, ?_, ?_⟩
    · rw [List.length_append, ← length]; exact fits
    · intro none
      rw [length, ← List.length_append, none] at positive
      exact absurd positive (by simp)
  · exact fun entry member => notQ _ (rep.apart entry member) (storedLive entry member)
  · exact fun bufReal => (Function.update_of_ne (bufKept bufReal).1 _ _).trans (bufKept bufReal).2
  · intro bufReal owned
    rcases owned with same | ⟨entry, member, same⟩
    · exact (bufKept bufReal).1 same
    · exact buf.foreign bufReal (Or.inr ⟨entry, member, same⟩)

theorem push_stored (api : KernelApi) (heap : Heap) (content : List AesdBufferEntry) (lines : List Bytes)
    (entry : AesdBufferEntry) (line : Bytes) (stored : List.Forall₂ (BlockRep api heap) content lines)
    (block : BlockRep api heap entry line) :
    List.Forall₂ (BlockRep api heap) (push 10 content entry) (push 10 lines line) := by
  have longer := List.rel_append stored (List.Forall₂.cons block .nil)
  simp only [push, List.rtake, longer.length_eq]
  exact List.forall₂_drop _ longer

theorem push_subset (content : List AesdBufferEntry) (entry other : AesdBufferEntry)
    (member : other ∈ push 10 content entry) : other ∈ content ∨ other = entry := by
  have inAll := List.drop_subset _ _ member
  simpa using inAll

theorem evicted_dropped (content : List AesdBufferEntry) (entry : AesdBufferEntry)
    (distinct : (content.map AesdBufferEntry.buffptr).Nodup) (apart : ∀ other ∈ content, other.buffptr ≠ entry.buffptr)
    (full : content.length = 10) :
    (∃ oldest ∈ content, evictedPtr content = oldest.buffptr) ∧
      ∀ other ∈ push 10 content entry, other.buffptr ≠ evictedPtr content := by
  rw [push_full 10 content entry (by decide) full]
  cases content with
  | nil => simp at full
  | cons oldest rest =>
      have evicted : evictedPtr (oldest :: rest) = oldest.buffptr := by
        simp only [evictedPtr, full, if_true, List.headD_cons]
      rw [evicted]
      refine ⟨⟨oldest, by simp, rfl⟩, ?_⟩
      intro other member
      simp only [List.tail_cons, List.mem_append, List.mem_singleton] at member
      rcases member with kept | rfl
      · intro same
        rw [List.map_cons, List.nodup_cons] at distinct
        exact distinct.1 (same ▸ List.mem_map_of_mem kept)
      · exact Ne.symm (apart oldest (by simp))

theorem push_distinct (content : List AesdBufferEntry) (entry : AesdBufferEntry)
    (distinct : (content.map AesdBufferEntry.buffptr).Nodup)
    (apart : ∀ other ∈ content, other.buffptr ≠ entry.buffptr) :
    ((push 10 content entry).map AesdBufferEntry.buffptr).Nodup := by
  have all : ((content ++ [entry]).map AesdBufferEntry.buffptr).Nodup := by
    rw [List.map_append, List.nodup_append]
    refine ⟨distinct, by simp, ?_⟩
    intro p member q single
    obtain ⟨other, inContent, rfl⟩ := List.mem_map.mp member
    simp only [List.map_cons, List.map_nil, List.mem_singleton] at single
    rw [single]
    exact apart other inContent
  exact all.sublist ((List.drop_sublist _ _).map _)

-- A complete line moves into the ring, and the oldest one makes room for it.
theorem complete_line (api : KernelApi) (kernel : Kernel) (content : List AesdBufferEntry) (lines : List Bytes)
    (line : Bytes) (writeBuf : Ptr) (rep : DevRep api kernel content lines (some line)) (nonempty : line ≠ [])
    (foreign : zeroOrNullPtr writeBuf = false → ¬ Owned kernel content writeBuf) :
    ∃ added freed, addWorkingEntry kernel = some (added, evictedPtr content) ∧
      freeEvicted added (evictedPtr content) = some freed ∧
      Locked api kernel (resetWorkingEntry freed) (push 10 content kernel.dev.workingEntry)
        (push 10 lines line) (some [])
        writeBuf := by
  have block : BlockRep api kernel.heap kernel.dev.workingEntry line := by
    have pending := rep.pending
    generalize kernel.dev.workingEntry = entry at pending
    cases pending with
    | empty reserved zero => exact absurd rfl nonempty
    | pending _ block => exact block
  obtain ⟨buffer, stored, ring⟩ := add_entry_rep kernel.dev.buffer content kernel.dev.workingEntry rep.ring
  have kept := push_stored api kernel.heap content lines kernel.dev.workingEntry line rep.stored block
  have distinct := push_distinct content kernel.dev.workingEntry rep.distinct rep.apart
  let added : Kernel := ⟨kernel.heap, { kernel.dev with buffer := buffer }⟩
  have adding : addWorkingEntry kernel = some (added, evictedPtr content) := by simp [addWorkingEntry, stored, added]
  have apart : ∀ entry ∈ push 10 content kernel.dev.workingEntry, entry.buffptr ≠ nullPtr := by
    intro entry member
    obtain ⟨_, _, found⟩ := stored_member api kernel.heap _ _ kept entry member
    exact real_not_null entry.buffptr found.real
  have notOwned : zeroOrNullPtr writeBuf = false → ∀ entry ∈ push 10 content kernel.dev.workingEntry,
      writeBuf ≠ entry.buffptr := by
    rintro real entry member rfl
    rcases push_subset content kernel.dev.workingEntry entry member with old | fresh
    · exact foreign real (Or.inr ⟨entry, old, rfl⟩)
    · exact foreign real (Or.inl (by rw [fresh]))
  have clear : ∀ heap : Heap, zeroOrNullPtr writeBuf = false →
      ¬ Owned (resetWorkingEntry ⟨heap, added.dev⟩) (push 10 content kernel.dev.workingEntry) writeBuf := by
    rintro heap real (same | ⟨entry, member, same⟩)
    · exact real_not_null writeBuf real same
    · exact notOwned real entry member same
  by_cases full : content.length = 10
  · obtain ⟨⟨oldest, inContent, evicted⟩, dropped⟩ :=
      evicted_dropped content kernel.dev.workingEntry rep.distinct rep.apart full
    obtain ⟨_, _, oldBlock⟩ := stored_member api kernel.heap content lines rep.stored oldest inContent
    have evictedReal : zeroOrNullPtr (evictedPtr content) = false := by rw [evicted]; exact oldBlock.real
    have freeing : freeEvicted added (evictedPtr content) =
        some ⟨Function.update kernel.heap (evictedPtr content) none, added.dev⟩ := by
      rw [freeEvicted, if_neg (real_not_null _ evictedReal),
        kfree_live added.heap _ _ evictedReal (by rw [evicted]; exact oldBlock.live)]
      rfl
    refine ⟨added, _, adding, freeing, ⟨⟨ring, ?_, .empty null_reserved rfl, distinct, apart⟩, ?_, clear _⟩⟩
    · exact stored_agree api kernel.heap _ _ _ (fun entry member => Function.update_of_ne (dropped entry member) _ _)
        kept
    · intro real
      refine Function.update_of_ne (fun same => foreign real (Or.inr ⟨oldest, inContent, ?_⟩)) _ _
      rw [same, evicted]
  · have none : evictedPtr content = nullPtr := by simp only [evictedPtr, if_neg full]
    exact ⟨added, added, adding, by simp only [freeEvicted, none, if_true],
      ⟨⟨ring, kept, .empty null_reserved rfl, distinct, apart⟩, fun _ => rfl, clear _⟩⟩

theorem memchr_found (bytes : Bytes) : (memchr bytes newLine).isSome = decide (newLine ∈ bytes) := by
  rw [Bool.eq_iff_iff, memchr, List.isSome_idxOf?, decide_eq_true_iff]

theorem bytes_up_to_new_line (bytes : Bytes) (count : UInt64) (length : count.toNat = bytes.length) :
    (bytesUpToNewLine bytes count).toNat = (upTo newLine bytes).length := by
  have bounded := up_to_length newLine bytes
  have small := count.toNat_lt
  unfold bytesUpToNewLine
  cases found : memchr bytes newLine with
  | none =>
      have absent : newLine ∉ bytes := by
        have flag := memchr_found bytes
        simpa [found] using flag
      simp only [up_to_open newLine bytes absent, length]
  | some index =>
      have position := up_to_index newLine bytes index found
      simp only [UInt64.toNat_add, UInt64.toNat_ofNat', UInt64.toNat_one]
      omega

end AesdChar
