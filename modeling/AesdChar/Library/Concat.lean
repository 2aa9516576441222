import Mathlib.Data.List.Flatten
import Mathlib.Data.List.Forall2
import Mathlib.Algebra.Order.Ring.Nat

set_option autoImplicit false

namespace Concat

-- Position of a concatenation: an element of the piece at index, within places
-- after its start.
structure Locates (sizes : List Nat) (position index within : Nat) : Prop where
  inside : within < sizes.getD index 0
  before : (sizes.take index).sum + within = position

theorem sum_take_succ (sizes : List Nat) (index : Nat) :
    (sizes.take (index + 1)).sum = (sizes.take index).sum + sizes.getD index 0 := by
  rw [List.take_add_one, List.sum_append, List.getD_eq_getElem?_getD]
  cases sizes[index]? <;> simp

theorem sum_take_le (sizes : List Nat) (index : Nat) : (sizes.take index).sum ≤ sizes.sum := by
  conv => rhs; rw [← List.take_append_drop index sizes, List.sum_append]
  omega

theorem locates_index (sizes : List Nat) (position index within : Nat) (found : Locates sizes position index within) :
    index < sizes.length := by
  by_contra outside
  have inside := found.inside
  rw [List.getD_eq_getElem?_getD, List.getElem?_eq_none (by omega), Option.getD_none] at inside
  omega

theorem locates_below (sizes : List Nat) (position index within : Nat) (found : Locates sizes position index within) :
    position < sizes.sum := by
  have next := sum_take_succ sizes index
  have total := sum_take_le sizes (index + 1)
  have inside := found.inside
  have before := found.before
  omega

theorem flatten_drop_piece {α : Type} (pieces : List (List α)) (index within : Nat) :
    pieces.flatten.drop (((pieces.map List.length).take index).sum + within) =
      (pieces.drop index).flatten.drop within := by
  have before : (pieces.take index).flatten.length = ((pieces.map List.length).take index).sum := by
    rw [List.length_flatten, List.map_take]
  have split : pieces.flatten = (pieces.take index).flatten ++ (pieces.drop index).flatten := by
    rw [← List.flatten_append, List.take_append_drop]
  rw [split, ← before, ← List.drop_drop, List.drop_left]

theorem flatten_located {α : Type} (pieces : List (List α)) (position index within : Nat)
    (found : Locates (pieces.map List.length) position index within) :
    pieces.flatten[position]? = (pieces.getD index [])[within]? := by
  have rest := flatten_drop_piece pieces index within
  rw [found.before] at rest
  have bound := locates_index _ _ _ _ found
  rw [List.length_map] at bound
  have inside : within < pieces[index].length := by
    have inside := found.inside
    simpa [List.getD_eq_getElem?_getD, bound] using inside
  rw [← List.head?_drop, rest, List.drop_eq_getElem_cons bound, List.flatten_cons, List.head?_drop,
    List.getElem?_append_left inside]
  simp [List.getD_eq_getElem?_getD, bound]

def restOfPiece {α : Type} : List (List α) → Nat → List α
  | [], _ => []
  | piece :: rest, position =>
      if position < piece.length then piece.drop position else restOfPiece rest (position - piece.length)

theorem rest_of_piece_located {α : Type} (pieces : List (List α)) (position index within : Nat)
    (found : Locates (pieces.map List.length) position index within) :
    restOfPiece pieces position = (pieces.getD index []).drop within := by
  induction pieces generalizing position index with
  | nil => exact absurd found.inside (by simp)
  | cons piece rest ih =>
      cases index with
      | zero =>
          have inside : within < piece.length := by simpa using found.inside
          have start : within = position := by simpa using found.before
          simp [restOfPiece, ← start, inside]
      | succ index =>
          have before : piece.length + ((rest.map List.length).take index).sum + within = position := by
            simpa using found.before
          have past : ¬ position < piece.length := by omega
          have later : Locates (rest.map List.length) (position - piece.length) index within :=
            ⟨by simpa using found.inside, by omega⟩
          simpa [restOfPiece, past] using ih (position - piece.length) index later

theorem rest_of_piece_empty {α : Type} (pieces : List (List α)) (position : Nat) :
    restOfPiece pieces position = [] ↔ pieces.flatten.length ≤ position := by
  induction pieces generalizing position with
  | nil => simp [restOfPiece]
  | cons piece rest ih =>
      by_cases inside : position < piece.length
      · simp only [restOfPiece, if_pos inside, List.drop_eq_nil_iff, List.flatten_cons, List.length_append]
        omega
      · simp only [restOfPiece, if_neg inside, ih, List.flatten_cons, List.length_append]
        omega

theorem rest_of_piece_front {α : Type} (pieces : List (List α)) (position : Nat) :
    restOfPiece pieces position <+: pieces.flatten.drop position := by
  induction pieces generalizing position with
  | nil => simp [restOfPiece]
  | cons piece rest ih =>
      by_cases inside : position < piece.length
      · rw [restOfPiece, if_pos inside, List.flatten_cons, List.drop_append_of_le_length (by omega)]
        exact List.prefix_append _ _
      · have past : piece.drop position = [] := List.drop_eq_nil_of_le (by omega)
        rw [restOfPiece, if_neg inside, List.flatten_cons, List.drop_append, past, List.nil_append]
        exact ih _

end Concat
