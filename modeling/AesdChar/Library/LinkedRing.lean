import Mathlib.Data.List.Chain
import Mathlib.Data.List.Nodup

set_option autoImplicit false

namespace LinkedRing

open List

variable {α : Type} {join now : α → α → Prop}

-- Each place is joined to the next one, from start through the members and
-- back to start.
def Ring (join : α → α → Prop) (start : α) (members : List α) : Prop := IsChain join (start :: members ++ [start])

theorem chain_change (places : List α) (chain : IsChain join places)
    (kept : ∀ x ∈ places.dropLast, ∀ y ∈ places.tail, join x y → now x y) : IsChain now places := by
  induction chain with
  | nil => exact .nil
  | singleton x => exact .singleton x
  | cons_cons joined chain ih =>
      refine .cons_cons (kept _ (by simp) _ (by simp) joined) (ih fun x left y right => ?_)
      exact kept x (List.mem_cons_of_mem _ left) y (List.mem_of_mem_tail right)

theorem ring_change (start : α) (members : List α) (ring : Ring join start members)
    (kept : ∀ x ∈ start :: members, ∀ y ∈ start :: members, join x y → now x y) : Ring now start members := by
  apply chain_change _ ring
  intro x left y right
  rw [List.dropLast_concat] at left
  exact kept x left y (by simpa [or_comm] using right)

-- The members between a and b are exchanged for others.
theorem ring_splice (start : α) (front old new rest : List α) (a b : α) (once : (start :: (front ++ rest)).Nodup)
    (last : (start :: front).getLast? = some a) (first : (rest ++ [start]).head? = some b)
    (kept : ∀ x ∈ start :: (front ++ rest), ∀ y ∈ start :: (front ++ rest), x ≠ a → y ≠ b → join x y → now x y)
    (inner : IsChain now (a :: new ++ [b])) (ring : Ring join start (front ++ old ++ rest)) :
    Ring now start (front ++ new ++ rest) := by
  have apart : ∀ x ∈ start :: front, x ∉ rest := by
    have halves := List.nodup_append.mp (show ((start :: front) ++ rest).Nodup from once)
    exact fun x left right => halves.2.2 x left x right rfl
  have notStart := (List.nodup_cons.mp once).1
  obtain ⟨before, left⟩ := List.getLast?_eq_some_iff.mp last
  obtain ⟨beyond, right⟩ := List.head?_eq_some_iff.mp first
  have leftOnce : (before ++ [a]).Nodup := by
    rw [← left]
    exact once.sublist (List.Sublist.cons_cons start (List.sublist_append_left front rest))
  have rightOnce : (b :: beyond).Nodup := by
    rw [← right, List.perm_append_comm.nodup_iff]
    exact once.sublist (List.Sublist.cons_cons start (List.sublist_append_right front rest))
  have aLeft : a ∈ start :: front := by simp [left]
  have bRight : b ∈ rest ++ [start] := by simp [right]
  have whole : start :: (front ++ old ++ rest) ++ [start] = (start :: front) ++ (old ++ (rest ++ [start])) := by simp
  rw [Ring, whole] at ring
  have leftChain : IsChain now (start :: front) := by
    apply chain_change _ ring.left_of_append
    intro x inLeft y inFront
    rw [left, List.dropLast_concat] at inLeft
    rw [List.tail_cons] at inFront
    refine kept x ?_ y (by simp [inFront]) ?_ ?_
    · have member : x ∈ start :: front := by simp [left, inLeft]
      exact List.mem_append_left rest member
    · rintro rfl
      exact (List.nodup_append.mp leftOnce).2.2 x inLeft x (by simp) rfl
    · rintro rfl
      rcases List.mem_append.mp bRight with inRest | isStart
      · exact apart y (List.mem_cons_of_mem start inFront) inRest
      · exact notStart (List.mem_append_left rest (List.mem_singleton.mp isStart ▸ inFront))
  have rightChain : IsChain now (rest ++ [start]) := by
    apply chain_change _ ring.right_of_append.right_of_append
    intro x inRest y inBeyond
    rw [List.dropLast_concat] at inRest
    rw [right, List.tail_cons] at inBeyond
    refine kept x (by simp [inRest]) y ?_ ?_ ?_
    · have member : y ∈ rest ++ [start] := by simp [right, inBeyond]
      rcases List.mem_append.mp member with inRest | isStart
      · simp [inRest]
      · simp [List.mem_singleton.mp isStart]
    · rintro rfl
      exact apart x aLeft inRest
    · rintro rfl
      exact (List.nodup_cons.mp rightOnce).1 inBeyond
  rw [left] at leftChain
  rw [right] at rightChain
  have upTo : IsChain now (before ++ [a] ++ (new ++ [b])) := leftChain.append_overlap inner (by simp)
  have all : IsChain now (before ++ [a] ++ new ++ [b] ++ beyond) := by
    refine List.IsChain.append_overlap ?_ rightChain (by simp)
    simpa using upTo
  rw [Ring]
  have spliced : start :: (front ++ new ++ rest) ++ [start] = before ++ [a] ++ new ++ [b] ++ beyond := by
    have joined : start :: (front ++ new ++ rest) ++ [start] = (start :: front) ++ new ++ (rest ++ [start]) := by simp
    rw [joined, left, right]
    simp
  rwa [spliced]

-- The members of a ring, between a and b.
theorem ring_inner (start : α) (members : List α) (a b : α) (ring : Ring join start members)
    (kept : ∀ x ∈ members, ∀ y ∈ members, join x y → now x y) (none : members = [] → now a b)
    (first : ∀ x ∈ members.head?, join start x → now a x) (last : ∀ x ∈ members.getLast?, join x start → now x b) :
    IsChain now (a :: members ++ [b]) := by
  rw [Ring] at ring
  have between : IsChain now members := by
    have old : IsChain join members := ring.left_of_append.tail
    exact old.imp_of_mem_imp fun x y inX inY => kept x inX y inY
  have begun : IsChain now (a :: members) := by
    apply between.cons
    intro x isFirst
    exact first x isFirst (ring.left_of_append.rel_head? isFirst)
  apply begun.append (.singleton b)
  intro x isLast y isEnd
  cases isEnd
  cases members with
  | nil =>
      cases isLast
      exact none rfl
  | cons p rest =>
      rw [List.getLast?_cons_cons] at isLast
      exact last x isLast ((List.isChain_append.mp ring).2.2 x (by rwa [List.getLast?_cons_cons]) start rfl)

-- Going on from a place of the ring, one comes to the places after it.
theorem ring_joins (start : α) (front rest : List α) (a : α) (ring : Ring join start (front ++ rest))
    (last : (start :: front).getLast? = some a) (b : α) (first : (rest ++ [start]).head? = some b) : join a b := by
  have whole : start :: (front ++ rest) ++ [start] = (start :: front) ++ (rest ++ [start]) := by simp
  rw [Ring, whole] at ring
  exact (List.isChain_append.mp ring).2.2 a last b first

end LinkedRing
