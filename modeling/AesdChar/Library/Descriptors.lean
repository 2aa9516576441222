import Mathlib.Data.Finset.Card
import Mathlib.Data.Nat.Find
import Mathlib.Logic.Function.Basic

set_option autoImplicit false

namespace Descriptors

-- The descriptors of a process. From some number on all are closed.
structure Fds (φ : Type) where
  file : Nat → Option φ
  bound : Nat
  closed : ∀ n, bound ≤ n → file n = none

section

variable {φ : Type} (fds : Fds φ) (file : φ) (n k : Nat)

theorem has_free : ∃ n, (fds.file n).isNone = true :=
  ⟨fds.bound, by rw [fds.closed fds.bound (Nat.le_refl _)]; rfl⟩

-- What a call that opens a file returns.
def Fds.lowest : Nat := Nat.find (has_free fds)

def Fds.put : Fds φ where
  file := Function.update fds.file n (some file)
  bound := max fds.bound (n + 1)
  closed m beyond := by
    have apart : m ≠ n := by omega
    rw [Function.update_of_ne apart]
    exact fds.closed m (by omega)

def Fds.close : Fds φ where
  file := Function.update fds.file n none
  bound := fds.bound
  closed m beyond := by
    by_cases same : m = n
    · rw [same, Function.update_self]
    · rw [Function.update_of_ne same, fds.closed m beyond]

def Fds.take : Fds φ := fds.put file fds.lowest

def Fds.dup : Option (Fds φ) := (fds.file n).map fds.take

-- How many of the first k descriptors are free.
def Fds.freeBelow : Nat := ((Finset.range k).filter fun m => (fds.file m).isNone = true).card

@[simp] theorem put_same : (fds.put file n).file n = some file := Function.update_self ..

theorem put_other (m : Nat) (apart : m ≠ n) : (fds.put file n).file m = fds.file m := Function.update_of_ne apart ..

@[simp] theorem close_same : (fds.close n).file n = none := Function.update_self ..

theorem close_other (m : Nat) (apart : m ≠ n) : (fds.close n).file m = fds.file m := Function.update_of_ne apart ..

theorem lowest_free : fds.file fds.lowest = none := Option.isNone_iff_eq_none.mp (Nat.find_spec (has_free fds))

theorem lowest_is (free : fds.file n = none) (taken : ∀ m < n, fds.file m ≠ none) : fds.lowest = n := by
  refine (Nat.find_eq_iff _).mpr ⟨by rw [free]; rfl, fun m below none => taken m below ?_⟩
  exact Option.isNone_iff_eq_none.mp none

theorem take_lowest (free : fds.file n = none) (taken : ∀ m < n, fds.file m ≠ none) :
    fds.take file = fds.put file n := by
  rw [Fds.take, lowest_is fds n free taken]

theorem lowest_below : fds.lowest < k ↔ fds.freeBelow k ≠ 0 := by
  rw [Fds.lowest, Nat.find_lt_iff, Fds.freeBelow, Finset.card_ne_zero]
  constructor
  · rintro ⟨m, below, free⟩
    exact ⟨m, Finset.mem_filter.mpr ⟨Finset.mem_range.mpr below, free⟩⟩
  · rintro ⟨m, member⟩
    obtain ⟨below, free⟩ := Finset.mem_filter.mp member
    exact ⟨m, Finset.mem_range.mp below, free⟩

-- The free descriptors below k are used up first.
theorem take_free_below : (fds.take file).freeBelow k = fds.freeBelow k - 1 := by
  have rest : (Finset.range k).filter (fun m => ((fds.take file).file m).isNone = true) =
      ((Finset.range k).filter fun m => (fds.file m).isNone = true).erase fds.lowest := by
    ext m
    by_cases same : m = fds.lowest
    · rw [same]
      simp [Fds.take]
    · simp [Fds.take, put_other, same]
  rw [Fds.freeBelow, rest, Fds.freeBelow]
  by_cases below : fds.lowest < k
  · refine Finset.card_erase_of_mem (Finset.mem_filter.mpr ⟨Finset.mem_range.mpr below, ?_⟩)
    rw [lowest_free]
    rfl
  · have none := mt (lowest_below fds k).mpr below
    rw [Finset.erase_eq_of_notMem]
    · rw [Fds.freeBelow] at none
      omega
    · simp [below]

end

end Descriptors
