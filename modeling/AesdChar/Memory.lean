import Mathlib.Logic.Function.Basic
import Mathlib.Data.List.Basic
import Mathlib.Algebra.Order.Ring.Nat

set_option autoImplicit false

namespace AesdChar

abbrev Bytes := List UInt8

abbrev Ptr := UInt64

-- The live blocks of the kernel heap, each at its address.
abbrev Heap := Ptr → Option Bytes

def nullPtr : Ptr := 0

def zeroSizePtr : Ptr := 16

def zeroOrNullPtr (p : Ptr) : Bool := decide (p ≤ zeroSizePtr)

-- An address that is reserved or live counts as a refusal. stale is what was there.
structure Answer where
  address : Option Ptr
  stale : Nat → UInt8

def staleBytes (answer : Answer) (start count : Nat) : Bytes :=
  (List.range' start count).map answer.stale

def freshAddress (heap : Heap) (p : Ptr) : Bool := !zeroOrNullPtr p && (heap p).isNone

-- KMALLOC_MAX_SIZE is far below the kernel's part of the address space.
-- fixedSizeLlseek takes f_pos, off, whence and size to its result and the new f_pos.
structure KernelApi where
  kmallocMaxSize : Nat
  addressable : 11 * kmallocMaxSize < 2 ^ 63
  fixedSizeLlseek : Int64 → Int64 → Int32 → Int64 → Int64 × Int64

-- SEEK_SET, SEEK_CUR and SEEK_END are 0, 1 and 2.
def documentedLlseek (fPos off : Int64) (whence : Int32) (size : Int64) : Int64 × Int64 :=
  let target :=
    if whence = 0 then some off else if whence = 1 then some (fPos + off)
    else if whence = 2 then some (size + off) else none
  match target with
  | none => (-22, fPos)
  | some position => if position < 0 ∨ size < position then (-22, fPos) else (position, position)

def stockKernel : KernelApi := ⟨4194304, by decide, documentedLlseek⟩

def kmalloc (api : KernelApi) (heap : Heap) (size : UInt64) (answer : Answer) : Heap × Ptr :=
  if size = 0 then (heap, zeroSizePtr)
  else if api.kmallocMaxSize < size.toNat then (heap, nullPtr)
  else match answer.address with
    | none => (heap, nullPtr)
    | some p =>
        if freshAddress heap p then (Function.update heap p (some (staleBytes answer 0 size.toNat)), p)
        else (heap, nullPtr)

-- none: the block was not live.
def kfree (heap : Heap) (p : Ptr) : Option Heap :=
  if zeroOrNullPtr p then some heap
  else match heap p with
    | none => none
    | some _ => some (Function.update heap p none)

def resized (old : Bytes) (size : Nat) (answer : Answer) : Bytes :=
  old.take size ++ staleBytes answer old.length (size - old.length)

-- A block grows in place when the answer is its own address and moves
-- otherwise; a refusal leaves it as it was. none: the old block was not live.
def krealloc (api : KernelApi) (heap : Heap) (p : Ptr) (size : UInt64) (answer : Answer) : Option (Heap × Ptr) :=
  if zeroOrNullPtr p then some (kmalloc api heap size answer)
  else match heap p with
    | none => none
    | some old =>
        if size = 0 then some (Function.update heap p none, zeroSizePtr)
        else if api.kmallocMaxSize < size.toNat then some (heap, nullPtr)
        else match answer.address with
          | none => some (heap, nullPtr)
          | some q =>
              if q = p then some (Function.update heap p (some (resized old size.toNat answer)), p)
              else if freshAddress heap q then
                some (Function.update (Function.update heap p none) q (some (resized old size.toNat answer)), q)
              else some (heap, nullPtr)

-- none: the access leaves its block.
def heapRead (heap : Heap) (p : Ptr) (offset count : Nat) : Option Bytes :=
  if count = 0 then some []
  else if zeroOrNullPtr p then none
  else match heap p with
    | none => none
    | some block => if offset + count ≤ block.length then some ((block.drop offset).take count) else none

def heapWrite (heap : Heap) (p : Ptr) (offset : Nat) (bytes : Bytes) : Option Heap :=
  if bytes = [] then some heap
  else if zeroOrNullPtr p then none
  else match heap p with
    | none => none
    | some block =>
        if offset + bytes.length ≤ block.length then
          some (Function.update heap p (some (block.take offset ++ bytes ++ block.drop (offset + bytes.length))))
        else none

theorem fresh_address (heap : Heap) (p : Ptr) (fresh : freshAddress heap p = true) :
    zeroOrNullPtr p = false ∧ heap p = none := by
  simpa [freshAddress] using fresh

theorem null_reserved : zeroOrNullPtr nullPtr = true := by decide

theorem zero_size_reserved : zeroOrNullPtr zeroSizePtr = true := by decide

theorem zero_size_not_null : zeroSizePtr ≠ nullPtr := by decide

theorem real_not_null (p : Ptr) (real : zeroOrNullPtr p = false) : p ≠ nullPtr := by
  rintro rfl
  exact absurd real (by decide)

@[simp] theorem stale_length (answer : Answer) (start count : Nat) :
    (staleBytes answer start count).length = count := by
  simp [staleBytes]

theorem stale_take (answer : Answer) (count kept : Nat) (below : kept ≤ count) :
    (staleBytes answer 0 count).take kept = staleBytes answer 0 kept := by
  rw [staleBytes, ← List.map_take, List.take_range'_of_length_ge below, staleBytes]

theorem resized_length (old : Bytes) (size : Nat) (answer : Answer) : (resized old size answer).length = size := by
  simp only [resized, List.length_append, List.length_take, stale_length]
  omega

theorem resized_take (old : Bytes) (size : Nat) (answer : Answer) (grows : old.length ≤ size) :
    (resized old size answer).take old.length = old := by
  simp [resized, List.take_of_length_le grows]

inductive Kmalloced (api : KernelApi) (heap : Heap) (size : UInt64) (answer : Answer) : Heap × Ptr → Prop where
  | refused : Kmalloced api heap size answer (heap, nullPtr)
  | zero (empty : size = 0) : Kmalloced api heap size answer (heap, zeroSizePtr)
  | block (p : Ptr) (fresh : freshAddress heap p = true) (positive : size ≠ 0)
      (fits : size.toNat ≤ api.kmallocMaxSize) :
      Kmalloced api heap size answer (Function.update heap p (some (staleBytes answer 0 size.toNat)), p)

def Allocatable (api : KernelApi) (size : Nat) (answer : Answer) : Prop :=
  size = 0 ∨ (size ≤ api.kmallocMaxSize ∧ answer.address ≠ none)

theorem kmalloc_allocatable (api : KernelApi) (heap : Heap) (size : UInt64) (answer : Answer)
    (granted : (kmalloc api heap size answer).2 ≠ nullPtr) : Allocatable api size.toNat answer := by
  unfold kmalloc at granted
  by_cases zero : size = 0
  · exact Or.inl (by rw [zero]; rfl)
  · rw [if_neg zero] at granted
    by_cases large : api.kmallocMaxSize < size.toNat
    · simp [large] at granted
    · refine Or.inr ⟨Nat.not_lt.mp large, fun none => ?_⟩
      simp [large, none] at granted

theorem krealloc_allocatable (api : KernelApi) (heap next : Heap) (p q : Ptr) (size : UInt64) (answer : Answer)
    (ran : krealloc api heap p size answer = some (next, q))
    (granted : q ≠ nullPtr) : Allocatable api size.toNat answer := by
  unfold krealloc at ran
  by_cases reserved : zeroOrNullPtr p = true
  · rw [if_pos reserved] at ran
    have same := congrArg Prod.snd (Option.some.inj ran)
    exact kmalloc_allocatable api heap size answer (by rw [same]; exact granted)
  · rw [if_neg reserved] at ran
    split at ran
    · cases ran
    · by_cases zero : size = 0
      · exact Or.inl (by rw [zero]; rfl)
      · rw [if_neg zero] at ran
        by_cases large : api.kmallocMaxSize < size.toNat
        · rw [if_pos large] at ran
          exact absurd (congrArg Prod.snd (Option.some.inj ran)).symm granted
        · refine Or.inr ⟨Nat.not_lt.mp large, fun none => ?_⟩
          rw [if_neg large, none] at ran
          exact absurd (congrArg Prod.snd (Option.some.inj ran)).symm granted

theorem kmalloc_cases (api : KernelApi) (heap : Heap) (size : UInt64) (answer : Answer) :
    Kmalloced api heap size answer (kmalloc api heap size answer) := by
  unfold kmalloc
  by_cases empty : size = 0
  · rw [if_pos empty]
    exact .zero empty
  · rw [if_neg empty]
    by_cases large : api.kmallocMaxSize < size.toNat
    · rw [if_pos large]
      exact .refused
    · rw [if_neg large]
      cases address : answer.address with
      | none => exact .refused
      | some p =>
          by_cases fresh : freshAddress heap p = true
          · simp only [fresh, if_true]
            exact .block p fresh empty (by omega)
          · simp only [fresh]
            exact .refused

inductive Krealloced (api : KernelApi) (heap : Heap) (p : Ptr) (old : Bytes) (size : UInt64) (answer : Answer) :
    Heap × Ptr → Prop where
  | refused : Krealloced api heap p old size answer (heap, nullPtr)
  | released (empty : size = 0) : Krealloced api heap p old size answer (Function.update heap p none, zeroSizePtr)
  | kept (fits : size.toNat ≤ api.kmallocMaxSize) :
      Krealloced api heap p old size answer (Function.update heap p (some (resized old size.toNat answer)), p)
  | moved (q : Ptr) (fresh : freshAddress heap q = true) (fits : size.toNat ≤ api.kmallocMaxSize) :
      Krealloced api heap p old size answer
        (Function.update (Function.update heap p none) q (some (resized old size.toNat answer)), q)

theorem krealloc_cases (api : KernelApi) (heap : Heap) (p : Ptr) (old : Bytes) (size : UInt64) (answer : Answer)
    (real : zeroOrNullPtr p = false) (live : heap p = some old) :
    ∃ result, krealloc api heap p size answer = some result ∧ Krealloced api heap p old size answer result := by
  simp only [krealloc, real, Bool.false_eq_true, if_false, live]
  by_cases empty : size = 0
  · exact ⟨_, by rw [if_pos empty], .released empty⟩
  · rw [if_neg empty]
    by_cases large : api.kmallocMaxSize < size.toNat
    · exact ⟨_, by rw [if_pos large], .refused⟩
    · rw [if_neg large]
      cases address : answer.address with
      | none => exact ⟨_, rfl, .refused⟩
      | some q =>
          by_cases same : q = p
          · exact ⟨_, by simp only [if_pos same], .kept (by omega)⟩
          · by_cases fresh : freshAddress heap q = true
            · exact ⟨_, by simp only [if_neg same, fresh, if_true], .moved q fresh (by omega)⟩
            · exact ⟨_, by simp only [if_neg same, fresh]; rfl, .refused⟩

theorem krealloc_reserved (api : KernelApi) (heap : Heap) (p : Ptr) (size : UInt64) (answer : Answer)
    (reserved : zeroOrNullPtr p = true) : krealloc api heap p size answer = some (kmalloc api heap size answer) := by
  simp [krealloc, reserved]

theorem kfree_live (heap : Heap) (p : Ptr) (block : Bytes) (real : zeroOrNullPtr p = false)
    (live : heap p = some block) : kfree heap p = some (Function.update heap p none) := by
  simp [kfree, real, live]

theorem kfree_reserved (heap : Heap) (p : Ptr) (reserved : zeroOrNullPtr p = true) : kfree heap p = some heap := by
  simp [kfree, reserved]

theorem heap_read_live (heap : Heap) (p : Ptr) (block : Bytes) (offset count : Nat)
    (real : zeroOrNullPtr p = false) (live : heap p = some block) (inside : offset + count ≤ block.length) :
    heapRead heap p offset count = some ((block.drop offset).take count) := by
  by_cases zero : count = 0
  · simp [heapRead, zero]
  · simp [heapRead, zero, real, live, inside]

theorem heap_write_end (heap : Heap) (p : Ptr) (block bytes : Bytes) (offset : Nat)
    (real : zeroOrNullPtr p = false) (live : heap p = some block) (exact : block.length = offset + bytes.length) :
    heapWrite heap p offset bytes = some (Function.update heap p (some (block.take offset ++ bytes))) := by
  by_cases empty : bytes = []
  · subst bytes
    have whole : block.take offset = block := List.take_of_length_le (by simp at exact; omega)
    simp [heapWrite, whole, ← live]
  · simp [heapWrite, empty, real, live, ← exact]

end AesdChar
