import Mathlib.Algebra.Order.BigOperators.Group.Finset
import Mathlib.Data.List.Infix

set_option autoImplicit false

namespace PartialTransfer

section

-- Pieces are offered one after another to a receiver that takes only the first
-- counts k elements of piece k; the rest of it is not offered again.
variable {α : Type} (pieces : Nat → List α) (counts : Nat → Nat)

def content (n : Nat) : List α := (List.range n).flatMap pieces

def accepted (n : Nat) : List α := (List.range n).flatMap fun k => (pieces k).take (counts k)

def lost (n : Nat) : Nat := ∑ k ∈ Finset.range n, ((pieces k).length - counts k)

-- What is taken of piece k is also found as many places earlier as elements
-- have been lost before it.
def LossUnseen (n k : Nat) : Prop :=
  ((content pieces n).drop (content pieces k).length).take (counts k) =
    ((content pieces n).drop ((content pieces k).length - lost pieces counts k)).take (counts k)

theorem content_succ (n : Nat) : content pieces (n + 1) = content pieces n ++ pieces n := by
  simp [content, List.range_succ]

theorem accepted_succ (n : Nat) :
    accepted pieces counts (n + 1) = accepted pieces counts n ++ (pieces n).take (counts n) := by
  simp [accepted, List.range_succ]

theorem content_prefix (k n : Nat) (early : k ≤ n) : content pieces k <+: content pieces n := by
  induction n, early using Nat.le_induction with
  | base => exact List.prefix_refl _
  | succ n _ ih =>
      rw [content_succ]
      exact ih.trans (List.prefix_append _ _)

theorem content_piece (k n count : Nat) (early : k < n) (inside : count ≤ (pieces k).length) :
    ((content pieces n).drop (content pieces k).length).take count = (pieces k).take count := by
  obtain ⟨rest, whole⟩ := content_prefix pieces (k + 1) n early
  rw [← whole, content_succ, List.append_assoc, List.drop_left, List.take_append_of_le_length inside]

theorem content_length (m : Nat) : (content pieces m).length = (accepted pieces counts m).length +
    lost pieces counts m := by
  induction m with
  | zero => rfl
  | succ m ih =>
      have later : lost pieces counts (m + 1) = lost pieces counts m + ((pieces m).length - counts m) :=
        Finset.sum_range_succ _ m
      rw [accepted_succ, content_succ, List.length_append, List.length_append, List.length_take, later]
      omega

-- One piece: the elements before it stay a prefix when and only when the loss
-- before it does not show.
theorem accepted_prefix_step (n k : Nat) (early : k < n) (inside : ∀ k < n, counts k ≤ (pieces k).length)
    (before : accepted pieces counts k <+: content pieces n) :
    accepted pieces counts (k + 1) <+: content pieces n ↔ LossUnseen pieces counts n k := by
  have split := content_length pieces counts k
  have place : (content pieces k).length - lost pieces counts k = (accepted pieces counts k).length := by omega
  have count : ((pieces k).take (counts k)).length = counts k := by
    rw [List.length_take, Nat.min_eq_left (inside k early)]
  rw [LossUnseen, content_piece pieces k n (counts k) early (inside k early), place, accepted_succ]
  obtain ⟨rest, whole⟩ := before
  rw [← whole, List.prefix_append_right_inj, List.drop_left, List.prefix_iff_eq_take, count]

theorem accepted_prefix_iff (n : Nat) (inside : ∀ k < n, counts k ≤ (pieces k).length) :
    (∀ m ≤ n, accepted pieces counts m <+: content pieces n) ↔ ∀ k < n, LossUnseen pieces counts n k := by
  constructor
  · intro always k early
    exact (accepted_prefix_step pieces counts n k early inside (always k (Nat.le_of_lt early))).mp
      (always (k + 1) early)
  · intro unseen m
    induction m with
    | zero => exact fun _ => List.nil_prefix
    | succ m ih =>
        intro early
        exact (accepted_prefix_step pieces counts n m early inside (ih (Nat.le_of_lt early))).mpr (unseen m early)

theorem lost_nothing_iff (n : Nat) (inside : ∀ k < n, counts k ≤ (pieces k).length) :
    lost pieces counts n = 0 ↔ ∀ k < n, counts k = (pieces k).length := by
  rw [lost, Finset.sum_eq_zero_iff]
  constructor
  · intro nothing k early
    have here := nothing k (Finset.mem_range.mpr early)
    have within := inside k early
    omega
  · intro whole k member
    rw [whole k (Finset.mem_range.mp member), Nat.sub_self]

theorem accepted_all_iff (n : Nat) (inside : ∀ k < n, counts k ≤ (pieces k).length)
    (front : accepted pieces counts n <+: content pieces n) :
    accepted pieces counts n = content pieces n ↔ ∀ k < n, counts k = (pieces k).length := by
  rw [← lost_nothing_iff pieces counts n inside]
  have split := content_length pieces counts n
  constructor
  · intro same
    rw [same] at split
    omega
  · intro nothing
    exact front.eq_of_length (by omega)

end

end PartialTransfer
