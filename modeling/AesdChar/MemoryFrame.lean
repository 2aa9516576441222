import AesdChar.Memory
import AesdChar.Library.HeapStore

set_option autoImplicit false

namespace AesdChar

open HeapStore

-- The kernel's memory functions touch one block. Blocks apart from the heap
-- they are given stay apart and make no difference, as long as the allocator
-- does not hand out the address of one of them.

-- kmalloc has no use for the answer, or it is an address that is free.
def grantable (api : KernelApi) (heap : Heap) (size : UInt64) (answer : Answer) : Bool :=
  decide (size = 0) || decide (api.kmallocMaxSize < size.toNat) ||
    answer.address.all fun p => zeroOrNullPtr p || (heap p).isNone

def regrantable (heap : Heap) (p : Ptr) (answer : Answer) : Bool :=
  answer.address.all fun q => decide (q = p) || zeroOrNullPtr q || (heap q).isNone

theorem fresh_union (heap extra : Heap) (p : Ptr) (free : zeroOrNullPtr p = true ∨ union heap extra p = none) :
    freshAddress (union heap extra) p = freshAddress heap p := by
  rcases free with reserved | absent
  · simp [freshAddress, reserved]
  · obtain ⟨here, _⟩ := (union_absent heap extra p).mp absent
    simp [freshAddress, absent, here]

-- What kmalloc may give is not a block of the frame either.
theorem fresh_spare (heap extra : Heap) (p : Ptr) (free : zeroOrNullPtr p = true ∨ union heap extra p = none)
    (fresh : freshAddress heap p = true) : extra p = none := by
  rcases free with reserved | gone
  · rw [(fresh_address heap p fresh).1] at reserved
    cases reserved
  · exact ((union_absent heap extra p).mp gone).2

theorem kmalloc_framed (api : KernelApi) (heap extra : Heap) (size : UInt64) (answer : Answer)
    (apart : Apart heap extra) (grants : grantable api (union heap extra) size answer = true) :
    Apart (kmalloc api heap size answer).1 extra ∧ kmalloc api (union heap extra) size answer =
      (union (kmalloc api heap size answer).1 extra, (kmalloc api heap size answer).2) := by
  unfold kmalloc
  by_cases empty : size = 0
  · simp [empty, apart]
  · by_cases large : api.kmallocMaxSize < size.toNat
    · simp [empty, large, apart]
    · cases address : answer.address with
      | none => simp [empty, large, apart]
      | some p =>
          have free : zeroOrNullPtr p = true ∨ union heap extra p = none := by
            simpa [grantable, empty, large, address] using grants
          simp only [empty, large, if_false, fresh_union heap extra p free]
          by_cases fresh : freshAddress heap p = true
          · have absent := fresh_spare heap extra p free fresh
            simp only [fresh, if_true, update_union heap extra p _ absent, and_true]
            exact apart_update heap extra p _ apart absent
          · simp [fresh, apart]

theorem kfree_framed (heap extra next : Heap) (p : Ptr) (apart : Apart heap extra) (freed : kfree heap p = some next) :
    Apart next extra ∧ kfree (union heap extra) p = some (union next extra) := by
  unfold kfree at freed ⊢
  by_cases reserved : zeroOrNullPtr p = true
  · simp only [reserved, if_true, Option.some.injEq] at freed ⊢
    exact ⟨freed ▸ apart, by rw [freed]⟩
  · cases live : heap p with
    | none => simp [reserved, live] at freed
    | some block =>
        have absent := live_apart heap extra p block apart live
        simp only [reserved, live] at freed
        cases freed
        simp only [reserved, union_left heap extra p block live, update_union heap extra p _ absent]
        exact ⟨apart_update heap extra p _ apart absent, rfl⟩

theorem heap_read_framed (heap extra : Heap) (p : Ptr) (offset count : Nat) (bytes : Bytes)
    (found : heapRead heap p offset count = some bytes) : heapRead (union heap extra) p offset count = some bytes := by
  unfold heapRead at found ⊢
  by_cases nothing : count = 0
  · simpa [nothing] using found
  · by_cases reserved : zeroOrNullPtr p = true
    · simp [nothing, reserved] at found
    · cases live : heap p with
      | none => simp [nothing, reserved, live] at found
      | some block => simpa [nothing, reserved, live, union_left heap extra p block live] using found

theorem heap_write_framed (heap extra next : Heap) (p : Ptr) (offset : Nat) (bytes : Bytes) (apart : Apart heap extra)
    (written : heapWrite heap p offset bytes = some next) :
    Apart next extra ∧ heapWrite (union heap extra) p offset bytes = some (union next extra) := by
  unfold heapWrite at written ⊢
  by_cases nothing : bytes = []
  · simp only [nothing, if_true, Option.some.injEq] at written ⊢
    exact ⟨written ▸ apart, by rw [written]⟩
  · by_cases reserved : zeroOrNullPtr p = true
    · simp [nothing, reserved] at written
    · cases live : heap p with
      | none => simp [nothing, reserved, live] at written
      | some block =>
          have absent := live_apart heap extra p block apart live
          simp only [nothing, reserved, live, union_left heap extra p block live, if_false,
            Bool.false_eq_true] at written ⊢
          by_cases inside : offset + bytes.length ≤ block.length
          · simp only [inside, if_true, Option.some.injEq] at written ⊢
            subst written
            exact ⟨apart_update heap extra p _ apart absent, by rw [update_union heap extra p _ absent]⟩
          · simp [inside] at written

-- krealloc(NULL, ..) is kmalloc.
theorem regrantable_reserved (api : KernelApi) (heap : Heap) (p : Ptr) (size : UInt64) (answer : Answer)
    (reserved : zeroOrNullPtr p = true) (grants : regrantable heap p answer = true) :
    grantable api heap size answer = true := by
  cases address : answer.address with
  | none => simp [grantable, address]
  | some a =>
      have free : (a = p ∨ zeroOrNullPtr a = true) ∨ heap a = none := by
        simpa [regrantable, address] using grants
      rcases free with (rfl | low) | absent
      · simp [grantable, address, reserved]
      · simp [grantable, address, low]
      · simp [grantable, address, absent]

theorem krealloc_framed (api : KernelApi) (heap extra next : Heap) (p q : Ptr) (size : UInt64) (answer : Answer)
    (apart : Apart heap extra) (grants : regrantable (union heap extra) p answer = true)
    (grown : krealloc api heap p size answer = some (next, q)) :
    Apart next extra ∧ krealloc api (union heap extra) p size answer = some (union next extra, q) := by
  unfold krealloc at grown ⊢
  by_cases reserved : zeroOrNullPtr p = true
  · have grantsKmalloc := regrantable_reserved api (union heap extra) p size answer reserved grants
    obtain ⟨kept, same⟩ := kmalloc_framed api heap extra size answer apart grantsKmalloc
    simp only [reserved, if_true, Option.some.injEq] at grown ⊢
    rw [same, grown]
    exact ⟨by rw [grown] at kept; exact kept, rfl⟩
  · cases live : heap p with
    | none => simp [reserved, live] at grown
    | some old =>
        have absent := live_apart heap extra p old apart live
        simp only [reserved, live, union_left heap extra p old live] at grown ⊢
        by_cases empty : size = 0
        · simp only [empty, if_true, Option.some.injEq, Prod.mk.injEq, Bool.false_eq_true, if_false] at grown ⊢
          obtain ⟨rfl, rfl⟩ := grown
          exact ⟨apart_update heap extra p _ apart absent, by rw [update_union heap extra p _ absent], rfl⟩
        · by_cases large : api.kmallocMaxSize < size.toNat
          · simp only [empty, large, if_true, Option.some.injEq, Prod.mk.injEq, Bool.false_eq_true, if_false] at grown ⊢
            obtain ⟨rfl, rfl⟩ := grown
            exact ⟨apart, rfl, rfl⟩
          · simp only [empty, large, if_false, Bool.false_eq_true] at grown ⊢
            cases address : answer.address with
            | none =>
                simp only [address, Option.some.injEq, Prod.mk.injEq] at grown ⊢
                obtain ⟨rfl, rfl⟩ := grown
                exact ⟨apart, rfl, rfl⟩
            | some a =>
                simp only [address] at grown ⊢
                by_cases same : a = p
                · simp only [same, if_true, Option.some.injEq, Prod.mk.injEq] at grown ⊢
                  obtain ⟨rfl, rfl⟩ := grown
                  exact ⟨apart_update heap extra p _ apart absent, by rw [update_union heap extra p _ absent], rfl⟩
                · have free : zeroOrNullPtr a = true ∨ union heap extra a = none := by
                    simpa [regrantable, address, same] using grants
                  simp only [same, if_false, fresh_union heap extra a free] at grown ⊢
                  by_cases fresh : freshAddress heap a = true
                  · have spare := fresh_spare heap extra a free fresh
                    simp only [fresh, if_true, Option.some.injEq, Prod.mk.injEq] at grown ⊢
                    obtain ⟨rfl, rfl⟩ := grown
                    refine ⟨apart_update _ extra a _ (apart_update heap extra p _ apart absent) spare, ?_, rfl⟩
                    rw [update_union _ extra a _ spare, update_union heap extra p _ absent]
                  · simp only [fresh, if_false, Option.some.injEq, Prod.mk.injEq, Bool.false_eq_true] at grown ⊢
                    obtain ⟨rfl, rfl⟩ := grown
                    exact ⟨apart, rfl, rfl⟩

end AesdChar
