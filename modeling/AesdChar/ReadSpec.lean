import AesdChar.DeviceRep
import AesdChar.RingLookup
import AesdChar.Words
import Mathlib.Algebra.Order.BigOperators.Group.List
import Mathlib.Algebra.Order.Ring.Nat

set_option autoImplicit false

namespace AesdChar

open Concat CyclicQueue HeapStore

theorem stored_sizes (api : KernelApi) (heap : Heap) (content : List AesdBufferEntry) (lines : List Bytes)
    (stored : List.Forall₂ (BlockRep api heap) content lines) : sizesOf content = lines.map List.length := by
  induction stored with
  | nil => rfl
  | cons block _ ih => simpa [sizesOf, block.size] using ih

theorem stored_get (api : KernelApi) (heap : Heap) (content : List AesdBufferEntry) (lines : List Bytes)
    (stored : List.Forall₂ (BlockRep api heap) content lines) (index : Nat) (bound : index < content.length) :
    BlockRep api heap (content.getD index zeroEntry) (lines.getD index []) := by
  induction stored generalizing index with
  | nil => exact absurd bound (by simp)
  | cons block _ ih =>
      cases index with
      | zero => exact block
      | succ index => exact ih index (by simpa using bound)

theorem retained_fits (api : KernelApi) (kernel : Kernel) (content : List AesdBufferEntry) (lines : List Bytes)
    (working : Option Bytes) (rep : DevRep api kernel content lines working) : lines.flatten.length < 2 ^ 63 := by
  have bounded := rep.ring.window.bounded
  have same := rep.stored.length_eq
  have addressable := api.addressable
  have each : ∀ size ∈ lines.map List.length, size ≤ api.kmallocMaxSize := by
    intro size member
    rw [← stored_sizes api kernel.heap content lines rep.stored, sizesOf] at member
    obtain ⟨entry, inContent, rfl⟩ := List.mem_map.mp member
    obtain ⟨line, _, block⟩ := stored_member api kernel.heap content lines rep.stored entry inContent
    rw [block.size]
    exact block.fits
  have total := List.sum_le_card_nsmul _ _ each
  rw [List.length_map, nsmul_eq_mul, Nat.cast_id] at total
  rw [List.length_flatten]
  have tenfold : lines.length * api.kmallocMaxSize ≤ 10 * api.kmallocMaxSize := Nat.mul_le_mul_right _ (by omega)
  omega

def readBytes (lines : List Bytes) (position count : Nat) : Bytes := (restOfPiece lines position).take count

theorem read_bytes_past (lines : List Bytes) (position count : Nat) (past : lines.flatten.length ≤ position) :
    readBytes lines position count = [] := by
  rw [readBytes, (rest_of_piece_empty lines position).mpr past, List.take_nil]

theorem read_bytes_some (lines : List Bytes) (position count : Nat) (inside : position < lines.flatten.length)
    (asked : 0 < count) : readBytes lines position count ≠ [] := by
  intro nothing
  rcases List.take_eq_nil_iff.mp nothing with zero | empty
  · omega
  · have past := (rest_of_piece_empty lines position).mp empty
    omega

theorem read_bytes_content (lines : List Bytes) (position count : Nat) :
    readBytes lines position count = (lines.flatten.drop position).take (readBytes lines position count).length :=
  List.prefix_iff_eq_take.mp ((List.take_prefix _ _).trans (rest_of_piece_front lines position))

theorem read_bytes_length (lines : List Bytes) (position count : Nat) :
    (readBytes lines position count).length ≤ count ∧
    (readBytes lines position count).length ≤ lines.flatten.length - position := by
  constructor
  · rw [readBytes, List.length_take]
    exact Nat.min_le_left _ _
  · have lengths := congrArg List.length (read_bytes_content lines position count)
    simp only [List.length_take, List.length_drop] at lengths
    omega

def byteCount (bytes : Bytes) : Int64 := (UInt64.ofNat bytes.length).toInt64

-- bytes_to_read_out is the smaller of count and the rest of the entry.
theorem bytes_to_read_out (left count : UInt64) :
    (if count < left.toInt64.toUInt64 then count.toInt64 else left.toInt64) =
      (UInt64.ofNat (min count.toNat left.toNat)).toInt64 := by
  rw [UInt64.toUInt64_toInt64]
  by_cases less : count < left
  · have ahead := UInt64.lt_iff_toNat_lt.mp less
    rw [if_pos less, Nat.min_eq_left (by omega), UInt64.ofNat_toNat]
  · have behind : ¬ count.toNat < left.toNat := fun ahead => less (UInt64.lt_iff_toNat_lt.mpr ahead)
    rw [if_neg less, Nat.min_eq_right (by omega), UInt64.ofNat_toNat]

theorem aesd_read_open (api : KernelApi) (kernel : Kernel) (content : List AesdBufferEntry) (lines : List Bytes)
    (working : Option Bytes) (filp : Filp) (buf : Ptr) (count : UInt64) (fPos : Int64) (copied : Bool)
    (rep : DevRep api kernel content lines working) (given : buf ≠ nullPtr) (opened : filp.privateData = true) :
    aesdRead kernel filp buf count fPos ⟨true, copied⟩ = some
      (if copyToUser copied (readBytes lines fPos.toUInt64.toNat count.toNat) then
        ⟨kernel, fPos + byteCount (readBytes lines fPos.toUInt64.toNat count.toNat),
          byteCount (readBytes lines fPos.toUInt64.toNat count.toNat), readBytes lines fPos.toUInt64.toNat count.toNat⟩
      else ⟨kernel, fPos, -eFault, []⟩) := by
  have sizes := stored_sizes api kernel.heap content lines rep.stored
  have fits := retained_fits api kernel content lines working rep
  have sum : (sizesOf content).sum = lines.flatten.length := by rw [sizes, List.length_flatten]
  obtain ⟨answer, looked, lookup⟩ := find_entry_lookup kernel.dev.buffer content fPos.toUInt64 rep.ring (by omega)
  cases lookup with
  | missing past =>
      have nothing := read_bytes_past lines fPos.toUInt64.toNat count.toNat (by omega)
      simp [aesdRead, given, opened, looked, nothing, copyToUser, byteCount]
  | found index within located =>
      have bound := locates_index _ _ _ _ located
      rw [sizesOf, List.length_map] at bound
      have bounded := rep.ring.window.bounded
      have block := stored_get api kernel.heap content lines rep.stored index bound
      have cell := rep.ring.window.cell index (by omega)
      have inside := located.inside
      rw [sizes_get] at inside
      rw [sizes] at located
      have size := block.size
      have left : ((content.getD index zeroEntry).size - within).toNat =
          (lines.getD index []).length - within.toNat := by
        rw [UInt64.toNat_sub_of_le _ _ (UInt64.le_iff_toNat_le.mpr (by omega)), size]
      have out := bytes_to_read_out ((content.getD index zeroEntry).size - within) count
      have some : readBytes lines fPos.toUInt64.toNat count.toNat =
          ((lines.getD index []).drop within.toNat).take
          (min count.toNat ((lines.getD index []).length - within.toNat)) := by
        rw [readBytes, rest_of_piece_located lines _ index _ located, ← List.length_drop, List.take_eq_take_min]
      have length : (readBytes lines fPos.toUInt64.toNat count.toNat).length =
          min count.toNat ((lines.getD index []).length - within.toNat) := by
        rw [some, List.length_take, List.length_drop]
        omega
      have asked :
        (UInt64.ofNat (min count.toNat ((lines.getD index []).length - within.toNat))).toInt64.toUInt64.toNat =
          min count.toNat ((lines.getD index []).length - within.toNat) := by
        rw [UInt64.toUInt64_toInt64, UInt64.toNat_ofNat_of_lt']
        exact lt_of_le_of_lt (Nat.min_le_left _ _) count.toNat_lt
      have read := heap_read_live kernel.heap _ _ within.toNat
        (min count.toNat ((lines.getD index []).length - within.toNat)) block.real block.live (by omega)
      rw [left] at out
      have counted : byteCount (readBytes lines fPos.toUInt64.toNat count.toNat) =
          (UInt64.ofNat (min count.toNat ((lines.getD index []).length - within.toNat))).toInt64 := by
        rw [byteCount, length]
      rw [counted, some]
      simp only [aesdRead, given, opened, looked, cell, out, asked, read, if_false, Bool.true_eq_false]
      split <;> rfl

end AesdChar
