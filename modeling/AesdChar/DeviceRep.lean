import AesdChar.Device
import AesdChar.RingFifo
import Mathlib.Data.List.Forall2

set_option autoImplicit false

namespace AesdChar

open CyclicQueue HeapStore

structure BlockRep (api : KernelApi) (heap : Heap) (entry : AesdBufferEntry) (line : Bytes) : Prop where
  real : zeroOrNullPtr entry.buffptr = false
  live : heap entry.buffptr = some line
  size : entry.size.toNat = line.length
  fits : line.length ≤ api.kmallocMaxSize
  nonempty : line ≠ []

-- The bytes pending in working_entry. none: a failed krealloc has replaced the
-- pointer by NULL and left the size, so the bytes are gone.
inductive WorkingRep (api : KernelApi) (heap : Heap) (entry : AesdBufferEntry) : Option Bytes → Prop where
  | empty (reserved : zeroOrNullPtr entry.buffptr = true) (zero : entry.size = 0) : WorkingRep api heap entry (some [])
  | pending (line : Bytes) (block : BlockRep api heap entry line) : WorkingRep api heap entry (some line)
  | lost (gone : entry.buffptr = nullPtr) (claimed : entry.size ≠ 0) (fits : entry.size.toNat ≤ api.kmallocMaxSize) :
      WorkingRep api heap entry none

structure DevRep (api : KernelApi) (kernel : Kernel) (content : List AesdBufferEntry) (lines : List Bytes)
    (working : Option Bytes) : Prop where
  ring : RingRep kernel.dev.buffer content
  stored : List.Forall₂ (BlockRep api kernel.heap) content lines
  pending : WorkingRep api kernel.heap kernel.dev.workingEntry working
  distinct : (content.map AesdBufferEntry.buffptr).Nodup
  apart : ∀ entry ∈ content, entry.buffptr ≠ kernel.dev.workingEntry.buffptr

def Owned (kernel : Kernel) (content : List AesdBufferEntry) (p : Ptr) : Prop :=
  p = kernel.dev.workingEntry.buffptr ∨ ∃ entry ∈ content, p = entry.buffptr

theorem block_rep_agree (api : KernelApi) (heap other : Heap) (entry : AesdBufferEntry) (line : Bytes)
    (agree : other entry.buffptr = heap entry.buffptr) (rep : BlockRep api heap entry line) :
    BlockRep api other entry line :=
  ⟨rep.real, agree.trans rep.live, rep.size, rep.fits, rep.nonempty⟩

theorem working_rep_agree (api : KernelApi) (heap other : Heap) (entry : AesdBufferEntry) (working : Option Bytes)
    (agree : zeroOrNullPtr entry.buffptr = false → other entry.buffptr = heap entry.buffptr)
    (rep : WorkingRep api heap entry working) : WorkingRep api other entry working := by
  cases rep with
  | empty reserved zero => exact .empty reserved zero
  | pending line block => exact .pending line (block_rep_agree api heap other entry line (agree block.real) block)
  | lost gone claimed fits => exact .lost gone claimed fits

theorem stored_agree (api : KernelApi) (heap other : Heap) (content : List AesdBufferEntry) (lines : List Bytes)
    (agree : ∀ entry ∈ content, other entry.buffptr = heap entry.buffptr)
    (stored : List.Forall₂ (BlockRep api heap) content lines) : List.Forall₂ (BlockRep api other) content lines := by
  induction stored with
  | nil => exact .nil
  | cons block rest ih =>
      exact .cons (block_rep_agree api heap other _ _ (agree _ (by simp)) block)
        (ih fun entry member => agree entry (by simp [member]))

theorem stored_member (api : KernelApi) (heap : Heap) (content : List AesdBufferEntry) (lines : List Bytes)
    (stored : List.Forall₂ (BlockRep api heap) content lines) (entry : AesdBufferEntry) (member : entry ∈ content) :
    ∃ line ∈ lines, BlockRep api heap entry line := by
  induction stored with
  | nil => simp at member
  | cons block rest ih =>
      rcases List.mem_cons.mp member with same | later
      · subst entry
        exact ⟨_, by simp, block⟩
      · obtain ⟨line, inLines, found⟩ := ih later
        exact ⟨line, by simp [inLines], found⟩

theorem dev_rep_agree (api : KernelApi) (kernel : Kernel) (heap : Heap) (content : List AesdBufferEntry)
    (lines : List Bytes) (working : Option Bytes)
    (agree : ∀ p, Owned kernel content p → zeroOrNullPtr p = false → heap p = kernel.heap p)
    (rep : DevRep api kernel content lines working) : DevRep api ⟨heap, kernel.dev⟩ content lines working := by
  refine ⟨rep.ring, ?_, ?_, rep.distinct, rep.apart⟩
  · apply stored_agree api kernel.heap heap content lines _ rep.stored
    intro entry member
    obtain ⟨line, _, block⟩ := stored_member api kernel.heap content lines rep.stored entry member
    exact agree _ (Or.inr ⟨entry, member, rfl⟩) block.real
  · exact working_rep_agree api kernel.heap heap _ working (agree _ (Or.inl rfl)) rep.pending

theorem owned_live (api : KernelApi) (kernel : Kernel) (content : List AesdBufferEntry) (lines : List Bytes)
    (working : Option Bytes) (rep : DevRep api kernel content lines working) (p : Ptr)
    (owned : Owned kernel content p) (real : zeroOrNullPtr p = false) : ∃ block, kernel.heap p = some block := by
  rcases owned with rfl | ⟨entry, member, rfl⟩
  · generalize workingEq : kernel.dev.workingEntry = entry at real
    have pending := rep.pending
    rw [workingEq] at pending
    cases pending with
    | empty reserved zero => rw [reserved] at real; cases real
    | pending line block => exact ⟨line, block.live⟩
    | lost gone claimed fits => rw [gone] at real; exact absurd real (by decide)
  · obtain ⟨line, _, block⟩ := stored_member api kernel.heap content lines rep.stored entry member
    exact ⟨line, block.live⟩

-- A block the device does not own, such as the copy of the user's buffer,
-- comes and goes without a trace.
theorem dev_rep_update (api : KernelApi) (kernel : Kernel) (content : List AesdBufferEntry) (lines : List Bytes)
    (working : Option Bytes) (p : Ptr) (block : Option Bytes) (foreign : ¬ Owned kernel content p)
    (rep : DevRep api kernel content lines working) :
    DevRep api ⟨Function.update kernel.heap p block, kernel.dev⟩ content lines working := by
  apply dev_rep_agree api kernel _ content lines working _ rep
  intro other owned _
  exact Function.update_of_ne (fun same => foreign (by rwa [← same])) _ _

theorem fresh_foreign (api : KernelApi) (kernel : Kernel) (content : List AesdBufferEntry) (lines : List Bytes)
    (working : Option Bytes) (rep : DevRep api kernel content lines working) (p : Ptr)
    (fresh : freshAddress kernel.heap p = true) : ¬ Owned kernel content p := by
  obtain ⟨real, absent⟩ := fresh_address kernel.heap p fresh
  intro owned
  obtain ⟨block, live⟩ := owned_live api kernel content lines working rep p owned real
  rw [absent] at live
  cases live

-- The device as aesd_init_module leaves it, and the kernel of a freshly loaded
-- module: the heap holds the driver's blocks, and there are none yet.
def loadedModule : Kernel := ⟨noBlocks, (aesdInitModule ⟨aesdCircularBufferInit, zeroEntry⟩ 0 0).1⟩

theorem dev_rep_loaded (api : KernelApi) : DevRep api loadedModule [] [] (some []) :=
  ⟨ring_rep_init, .nil, .empty (by decide) rfl, by simp, by simp⟩

end AesdChar
