import Mathlib.Data.List.Basic
import Mathlib.Algebra.Order.Ring.Nat

set_option autoImplicit false

namespace AesdChar

-- size_t, ssize_t and loff_t are 64-bit words, and a conversion between them
-- keeps the bits. Below 2^63 it keeps the number too.
theorem word_to_int (n : UInt64) (small : n.toNat < 2 ^ 63) : n.toInt64.toInt = n.toNat := by
  have bits : n.toInt64.toInt = n.toBitVec.toInt := rfl
  rw [bits, BitVec.toInt_eq_toNat_of_lt]
  · rfl
  · rw [UInt64.toNat_toBitVec]
    omega

theorem word_not_negative (n : UInt64) (small : n.toNat < 2 ^ 63) : ¬ n.toInt64 < 0 := by
  rw [Int64.lt_iff_toInt_lt, word_to_int n small]
  simp

theorem word_of_nat (n : Nat) (fits : n < 2 ^ 64) : (UInt64.ofNat n).toNat = n := UInt64.toNat_ofNat_of_lt' fits

theorem add_exact (a b : UInt64) (fits : a.toNat + b.toNat < 2 ^ 64) : (a + b).toNat = a.toNat + b.toNat := by
  rw [UInt64.toNat_add, Nat.mod_eq_of_lt fits]

theorem sub_exact (a b : UInt64) (below : b.toNat ≤ a.toNat) : (a - b).toNat = a.toNat - b.toNat :=
  UInt64.toNat_sub_of_le _ _ (UInt64.le_iff_toNat_le.mpr below)

def addChecked (a b : UInt64) : Option UInt64 := if a.toNat + b.toNat < 2 ^ 64 then some (a + b) else none

def subChecked (a b : UInt64) : Option UInt64 := if b.toNat ≤ a.toNat then some (a - b) else none

theorem add_checked_some (a b : UInt64) (fits : a.toNat + b.toNat < 2 ^ 64) :
    addChecked a b = some (a + b) := if_pos fits

theorem sub_checked_some (a b : UInt64) (below : b.toNat ≤ a.toNat) : subChecked a b = some (a - b) := if_pos below

end AesdChar
