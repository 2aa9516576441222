import Mathlib.Data.List.DropRight
import Mathlib.Data.List.Nodup
import Mathlib.Logic.Function.Basic

set_option autoImplicit false

namespace CyclicQueue

-- The abstract queue keeps the newest cap elements of everything pushed.
def push {α : Type} (cap : Nat) (content : List α) (x : α) : List α := (content ++ [x]).rtake cap

theorem rtake_length {α : Type} (cap : Nat) (pushed : List α) :
    (pushed.rtake cap).length = min pushed.length cap := by
  simp only [List.rtake, List.length_drop]
  omega

theorem rtake_short {α : Type} (cap : Nat) (pushed : List α) (short : pushed.length ≤ cap) :
    pushed.rtake cap = pushed := by
  have zero : pushed.length - cap = 0 := by omega
  simp [List.rtake, zero]

theorem rtake_rtake {α : Type} (small large : Nat) (pushed : List α) (below : small ≤ large) :
    (pushed.rtake large).rtake small = pushed.rtake small := by
  simp [List.rtake_eq_reverse_take_reverse, List.take_take, Nat.min_eq_left below]

theorem push_below {α : Type} (cap : Nat) (content : List α) (x : α) (room : content.length < cap) :
    push cap content x = content ++ [x] :=
  rtake_short cap (content ++ [x]) (by simp; omega)

theorem push_full {α : Type} (cap : Nat) (content : List α) (x : α) (positive : 0 < cap)
    (full : content.length = cap) : push cap content x = content.tail ++ [x] := by
  have one : content.length + 1 - cap = 1 := by omega
  cases content with
  | nil => simp at full; omega
  | cons head tail => simpa [push, List.rtake] using congrArg (fun n => (head :: (tail ++ [x])).drop n) one

-- Pushing onto the newest cap elements of a history gives the newest cap
-- elements of the longer history.
theorem push_rtake {α : Type} (cap : Nat) (pushed : List α) (x : α) :
    push cap (pushed.rtake cap) x = (pushed ++ [x]).rtake cap := by
  cases cap with
  | zero => simp [push]
  | succ n => simp only [push, List.rtake_concat_succ, rtake_rtake n (n + 1) pushed (by omega)]

theorem push_last {α : Type} (cap : Nat) (content : List α) (x : α) (positive : 0 < cap) :
    (push cap content x).getLast? = some x := by
  cases cap with
  | zero => omega
  | succ n => simp [push, List.rtake_concat_succ]

-- A window of cap cells read cyclically from start: the content first, then
-- blank cells up to one full turn.
structure Cyclic {α : Type} (cap : Nat) (cells : Nat → α) (start : Nat) (blank : α) (content : List α) : Prop where
  bounded : content.length ≤ cap
  inside : start < cap
  cell : ∀ i, i < cap → cells ((start + i) % cap) = content.getD i blank

theorem wrap_cases (cap start i : Nat) (inside : start < cap) (bound : i < cap) :
    (start + i < cap ∧ (start + i) % cap = start + i) ∨ (cap ≤ start + i ∧ (start + i) % cap = start + i - cap) := by
  by_cases below : start + i < cap
  · exact Or.inl ⟨below, Nat.mod_eq_of_lt below⟩
  · refine Or.inr ⟨by omega, ?_⟩
    rw [Nat.mod_eq_sub_mod (by omega), Nat.mod_eq_of_lt (by omega)]

theorem wrap_injective (cap start i j : Nat) (inside : start < cap) (iBound : i < cap) (jBound : j < cap)
    (same : (start + i) % cap = (start + j) % cap) : i = j := by
  have left := wrap_cases cap start i inside iBound
  have right := wrap_cases cap start j inside jBound
  omega

theorem wrap_surjective (cap start slot : Nat) (inside : start < cap) (bound : slot < cap) :
    ∃ i, i < cap ∧ (start + i) % cap = slot := by
  by_cases ahead : start ≤ slot
  · exact ⟨slot - start, by omega, by rw [Nat.mod_eq_of_lt (by omega)]; omega⟩
  · refine ⟨slot + cap - start, by omega, ?_⟩
    have turn : start + (slot + cap - start) = slot + cap := by omega
    rw [turn, Nat.add_mod_right, Nat.mod_eq_of_lt bound]

theorem cyclic_blank {α : Type} (cap start : Nat) (blank : α) (inside : start < cap) :
    Cyclic cap (fun _ => blank) start blank [] :=
  ⟨Nat.zero_le cap, inside, fun i _ => by simp⟩

theorem cyclic_push_below {α : Type} (cap : Nat) (cells : Nat → α) (start : Nat) (blank x : α) (content : List α)
    (rep : Cyclic cap cells start blank content) (room : content.length < cap) :
    Cyclic cap (Function.update cells ((start + content.length) % cap) x) start blank (push cap content x) := by
  rw [push_below cap content x room]
  refine ⟨by simp; omega, rep.inside, fun i bound => ?_⟩
  by_cases here : i = content.length
  · subst i
    simp [List.getD_eq_getElem?_getD]
  · have apart : (start + i) % cap ≠ (start + content.length) % cap := fun same =>
      here (wrap_injective cap start i content.length rep.inside bound room same)
    rw [Function.update_of_ne apart, rep.cell i bound]
    rcases Nat.lt_or_gt_of_ne here with before | after
    · simp [List.getD_eq_getElem?_getD, List.getElem?_append_left before]
    · have outside : content[i]? = none := List.getElem?_eq_none (by omega)
      have outsidePushed : (content ++ [x])[i]? = none := List.getElem?_eq_none (by simp; omega)
      simp [List.getD_eq_getElem?_getD, outside, outsidePushed]

-- A push into a full window overwrites the oldest cell, and the window starts
-- one cell later.
theorem cyclic_push_full {α : Type} (cap : Nat) (cells : Nat → α) (start : Nat) (blank x : α) (content : List α)
    (rep : Cyclic cap cells start blank content) (full : content.length = cap) :
    Cyclic cap (Function.update cells start x) ((start + 1) % cap) blank (push cap content x) := by
  have positive : 0 < cap := by have inside := rep.inside; omega
  rw [push_full cap content x positive full]
  refine ⟨by simp; omega, Nat.mod_lt _ positive, fun i bound => ?_⟩
  rw [Nat.mod_add_mod, Nat.add_assoc]
  by_cases last : i = cap - 1
  · have turn : (start + (1 + i)) % cap = start := by
      have whole : start + (1 + i) = start + cap := by omega
      rw [whole, Nat.add_mod_right, Nat.mod_eq_of_lt rep.inside]
    have index : content.tail.length = i := by simp; omega
    rw [turn, Function.update_self, List.getD_eq_getElem?_getD, List.getElem?_append_right (by omega)]
    simp [index]
  · have apart : (start + (1 + i)) % cap ≠ start := by
      intro same
      have zero : 1 + i = 0 := wrap_injective cap start (1 + i) 0 rep.inside (by omega) positive
        (by rw [same, Nat.add_zero, Nat.mod_eq_of_lt rep.inside])
      omega
    rw [Function.update_of_ne apart, rep.cell (1 + i) (by omega), List.getD_eq_getElem?_getD,
      List.getD_eq_getElem?_getD, List.getElem?_append_left (by simp; omega), List.getElem?_tail, Nat.add_comm]

theorem cyclic_agree {α : Type} (cap : Nat) (cells others : Nat → α) (start : Nat) (blank : α) (content : List α)
    (agree : ∀ slot, slot < cap → others slot = cells slot)
    (rep : Cyclic cap cells start blank content) : Cyclic cap others start blank content := by
  have positive : 0 < cap := by have inside := rep.inside; omega
  exact ⟨rep.bounded, rep.inside, fun i bound => by rw [agree _ (Nat.mod_lt _ positive), rep.cell i bound]⟩

theorem wrap_perm (cap start : Nat) (inside : start < cap) :
    ((List.range cap).map fun i => (start + i) % cap).Perm (List.range cap) := by
  have once : ((List.range cap).map fun i => (start + i) % cap).Nodup := by
    refine List.Nodup.map_on ?_ List.nodup_range
    intro i iBound j jBound same
    exact wrap_injective cap start i j inside (List.mem_range.mp iBound) (List.mem_range.mp jBound) same
  refine (List.perm_ext_iff_of_nodup once List.nodup_range).mpr fun slot => ?_
  rw [List.mem_map, List.mem_range]
  constructor
  · rintro ⟨i, _, rfl⟩
    exact Nat.mod_lt _ (by omega)
  · intro bound
    obtain ⟨i, iBound, reached⟩ := wrap_surjective cap start slot inside bound
    exact ⟨i, List.mem_range.mpr iBound, reached⟩

theorem getD_range {α : Type} (cap : Nat) (blank : α) (content : List α) (bounded : content.length ≤ cap) :
    (List.range cap).map (fun i => content.getD i blank) =
      content ++ List.replicate (cap - content.length) blank := by
  apply List.ext_getElem
  · simp only [List.length_map, List.length_range, List.length_append, List.length_replicate]
    omega
  · intro i left right
    rw [List.getElem_map, List.getElem_range, List.getD_eq_getElem?_getD]
    by_cases here : i < content.length
    · simp [here]
    · rw [List.getElem_append_right (by omega), List.getElem?_eq_none (by omega),
        List.getElem_replicate, Option.getD_none]

-- In the order of the cells, the window holds the same elements.
theorem cyclic_perm {α : Type} (cap : Nat) (cells : Nat → α) (start : Nat) (blank : α) (content : List α)
    (rep : Cyclic cap cells start blank content) :
    ((List.range cap).map cells).Perm (content ++ List.replicate (cap - content.length) blank) := by
  have turned := (wrap_perm cap start rep.inside).map cells
  have read : ((List.range cap).map fun i => (start + i) % cap).map cells =
      (List.range cap).map fun i => content.getD i blank := by
    rw [List.map_map]
    exact List.map_congr_left fun i bound => rep.cell i (List.mem_range.mp bound)
  rw [read, getD_range cap blank content rep.bounded] at turned
  exact turned.symm

end CyclicQueue
