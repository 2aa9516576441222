import Mathlib.Data.List.Basic

set_option autoImplicit false

namespace SlidingWindow

-- A growing sequence of which only a window at its end can be read, and a
-- reader who keeps an offset into the window. Either the window slides over n
-- elements, or the reader takes a piece; start is its place in the sequence.
inductive Move (α : Type) where
  | slide (n : Nat)
  | take (start : Nat) (piece : List α)
deriving DecidableEq

def pieces {α : Type} : List (Move α) → List (Nat × List α)
  | [] => []
  | .slide _ :: rest => pieces rest
  | .take start piece :: rest => (start, piece) :: pieces rest

def text {α : Type} (taken : List (Nat × List α)) : List α := taken.flatMap Prod.snd

inductive Follows {α : Type} : Nat → Nat → List (Move α) → Prop where
  | done (origin offset : Nat) : Follows origin offset []
  | slide (origin offset n : Nat) (moves : List (Move α)) (positive : 0 < n)
      (rest : Follows (origin + n) offset moves) :
      Follows origin offset (.slide n :: moves)
  | take (origin offset : Nat) (piece : List α) (moves : List (Move α))
      (rest : Follows origin (offset + piece.length) moves) :
      Follows origin offset (.take (origin + offset) piece :: moves)

def JoinedFrom {α : Type} : Nat → List (Nat × List α) → Prop
  | _, [] => True
  | stop, (start, piece) :: rest => start = stop ∧ JoinedFrom (start + piece.length) rest

def Joined {α : Type} : List (Nat × List α) → Prop
  | [] => True
  | (start, piece) :: rest => JoinedFrom (start + piece.length) rest

-- The window stands still between any two pieces. slid: it has moved since the
-- last one.
def StillFrom {α : Type} : Bool → List (Move α) → Prop
  | _, [] => True
  | _, .slide _ :: rest => StillFrom true rest
  | slid, .take _ _ :: rest => slid = false ∧ StillFrom false rest

def Still {α : Type} : List (Move α) → Prop
  | [] => True
  | .slide _ :: rest => Still rest
  | .take _ _ :: rest => StillFrom false rest

theorem joined_from_iff {α : Type} (origin offset stop : Nat) (slid : Bool) (moves : List (Move α))
    (follows : Follows origin offset moves) (behind : stop ≤ origin + offset)
    (level : slid = false ↔ stop = origin + offset) : JoinedFrom stop (pieces moves) ↔ StillFrom slid moves := by
  induction follows generalizing stop slid with
  | done origin offset => exact Iff.rfl
  | slide origin offset n moves positive rest ih =>
      refine ih stop true (by omega) ⟨fun moved => (by cases moved), fun same => ?_⟩
      omega
  | take origin offset piece moves rest ih =>
      have next := ih (origin + offset + piece.length) false (by omega) ⟨fun _ => by omega, fun _ => rfl⟩
      simp only [pieces, JoinedFrom, StillFrom]
      rw [level, next, eq_comm]

theorem joined_iff_still {α : Type} (origin offset : Nat) (moves : List (Move α))
    (follows : Follows origin offset moves) :
    Joined (pieces moves) ↔ Still moves := by
  induction follows with
  | done origin offset => exact Iff.rfl
  | slide origin offset n moves positive rest ih => exact ih
  | take origin offset piece moves rest ih =>
      exact joined_from_iff origin (offset + piece.length) (origin + offset + piece.length) false moves rest (by omega)
        ⟨fun _ => by omega, fun _ => rfl⟩

theorem joined_from_text {α : Type} (sequence : List α) (stop : Nat) (taken : List (Nat × List α))
    (exact : ∀ piece ∈ taken, piece.2 = (sequence.drop piece.1).take piece.2.length) (joined : JoinedFrom stop taken) :
    text taken = (sequence.drop stop).take (text taken).length := by
  induction taken generalizing stop with
  | nil => simp [text]
  | cons head rest ih =>
      obtain ⟨start, piece⟩ := head
      obtain ⟨same, later⟩ := joined
      subst same
      have first : piece = (sequence.drop start).take piece.length := exact (start, piece) (by simp)
      have others := ih (start + piece.length) (fun piece member => exact piece (by simp [member])) later
      have whole : text ((start, piece) :: rest) = piece ++ text rest := rfl
      rw [whole, List.length_append, List.take_add, ← first, List.drop_drop, ← others]

theorem joined_text {α : Type} (sequence : List α) (start : Nat) (piece : List α) (rest : List (Nat × List α))
    (exact : ∀ taken ∈ (start, piece) :: rest, taken.2 = (sequence.drop taken.1).take taken.2.length)
    (joined : Joined ((start, piece) :: rest)) :
    text ((start, piece) :: rest) = (sequence.drop start).take (text ((start, piece) :: rest)).length :=
  joined_from_text sequence start _ exact ⟨rfl, joined⟩

end SlidingWindow
