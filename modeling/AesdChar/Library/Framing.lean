import Mathlib.Data.List.Induction

set_option autoImplicit false

namespace Framing

-- The part of a chunk up to and including its first delimiter, and the whole
-- chunk when there is none.
def upTo {α : Type} [DecidableEq α] (delimiter : α) : List α → List α
  | [] => []
  | x :: rest => if x = delimiter then [x] else x :: upTo delimiter rest

structure Framed (α : Type) where
  lines : List (List α)
  tail : List α

def feed {α : Type} [DecidableEq α] (delimiter : α) (framed : Framed α) (x : α) : Framed α :=
  if x = delimiter then ⟨framed.lines ++ [framed.tail ++ [x]], []⟩ else ⟨framed.lines, framed.tail ++ [x]⟩

def frame {α : Type} [DecidableEq α] (delimiter : α) (stream : List α) : Framed α :=
  stream.foldl (feed delimiter) ⟨[], []⟩

def IsLine {α : Type} (delimiter : α) (line : List α) : Prop := ∃ body, line = body ++ [delimiter] ∧ delimiter ∉ body

-- What a framing of a stream has to be: nothing lost, reordered or added, and
-- delimiters exactly at the ends of the lines.
structure IsFraming {α : Type} (delimiter : α) (stream : List α) (framed : Framed α) : Prop where
  complete : framed.lines.flatten ++ framed.tail = stream
  lines : ∀ line ∈ framed.lines, IsLine delimiter line
  tail : delimiter ∉ framed.tail

theorem up_to_open {α : Type} [DecidableEq α] (delimiter : α) (chunk : List α) (absent : delimiter ∉ chunk) :
    upTo delimiter chunk = chunk := by
  induction chunk with
  | nil => rfl
  | cons x rest ih =>
      have different : x ≠ delimiter := fun same => absent (by simp [same])
      rw [upTo, if_neg different, ih (fun member => absent (by simp [member]))]

theorem up_to_close {α : Type} [DecidableEq α] (delimiter : α) (body rest : List α) (absent : delimiter ∉ body) :
    upTo delimiter (body ++ delimiter :: rest) = body ++ [delimiter] := by
  induction body with
  | nil => simp [upTo]
  | cons x tail ih =>
      have different : x ≠ delimiter := fun same => absent (by simp [same])
      rw [List.cons_append, upTo, if_neg different, ih (fun member => absent (by simp [member])), List.cons_append]

theorem up_to_take {α : Type} [DecidableEq α] (delimiter : α) (chunk : List α) :
    chunk.take (upTo delimiter chunk).length = upTo delimiter chunk := by
  induction chunk with
  | nil => rfl
  | cons x rest ih =>
      by_cases same : x = delimiter
      · simp [upTo, same]
      · simp [upTo, same, ih]

theorem up_to_length {α : Type} [DecidableEq α] (delimiter : α) (chunk : List α) :
    (upTo delimiter chunk).length ≤ chunk.length := by
  have front := congrArg List.length (up_to_take delimiter chunk)
  rw [List.length_take] at front
  omega

theorem up_to_index {α : Type} [DecidableEq α] (delimiter : α) (chunk : List α) (index : Nat)
    (found : chunk.idxOf? delimiter = some index) : (upTo delimiter chunk).length = index + 1 := by
  induction chunk generalizing index with
  | nil => simp at found
  | cons x rest ih =>
      rw [List.idxOf?_cons] at found
      by_cases same : x = delimiter
      · simp only [same, beq_self_eq_true, if_true, Option.some.injEq] at found
        simp [upTo, same, ← found]
      · simp only [beq_iff_eq, same, if_false, Option.map_eq_some_iff] at found
        obtain ⟨before, inRest, next⟩ := found
        simp [upTo, same, ih before inRest, ← next]

theorem split_first {α : Type} [DecidableEq α] (delimiter : α) (chunk : List α) (present : delimiter ∈ chunk) :
    ∃ body rest, chunk = body ++ delimiter :: rest ∧ delimiter ∉ body := by
  induction chunk with
  | nil => simp at present
  | cons x tail ih =>
      by_cases same : x = delimiter
      · exact ⟨[], tail, by simp [same], by simp⟩
      · obtain ⟨body, rest, split, absent⟩ := ih ((List.mem_cons.mp present).resolve_left (Ne.symm same))
        exact ⟨x :: body, rest, by simp [split], by simp [absent, Ne.symm same]⟩

theorem up_to_line {α : Type} [DecidableEq α] (delimiter : α) (chunk : List α) (present : delimiter ∈ chunk) :
    IsLine delimiter (upTo delimiter chunk) := by
  obtain ⟨body, rest, rfl, absent⟩ := split_first delimiter chunk present
  exact ⟨body, up_to_close delimiter body rest absent, absent⟩

theorem line_ends {α : Type} (delimiter : α) (line front rest : List α) (isLine : IsLine delimiter line)
    (split : line = front ++ delimiter :: rest) : rest = [] := by
  obtain ⟨body, rfl, absent⟩ := isLine
  rcases List.eq_nil_or_concat rest with none | ⟨init, last, some⟩
  · exact none
  · have whole : body ++ [delimiter] = (front ++ delimiter :: init) ++ [last] := by simpa [some] using split
    have bodyEq := (List.append_inj' whole rfl).1
    exact absurd (by simp [bodyEq]) absent

theorem line_front {α : Type} [DecidableEq α] (delimiter : α) (front rest : List α)
    (isLine : IsLine delimiter (front ++ rest)) (some : rest ≠ []) : delimiter ∉ front := by
  intro present
  obtain ⟨before, after, split, _⟩ := split_first delimiter front present
  have ended := line_ends delimiter (front ++ rest) before (after ++ rest) isLine (by rw [split]; simp)
  exact some (List.append_eq_nil_iff.mp ended).2

theorem line_tail {α : Type} (delimiter : α) (front rest : List α) (isLine : IsLine delimiter (front ++ rest))
    (some : rest ≠ []) : delimiter ∈ rest := by
  obtain ⟨body, whole, _⟩ := isLine
  rcases List.eq_nil_or_concat rest with none | ⟨init, last, same⟩
  · exact absurd none some
  · rw [same, List.concat_eq_append, ← List.append_assoc] at whole
    have last : last = delimiter := by simpa using (List.append_inj' whole rfl).2
    simp [same, last]

theorem up_to_whole {α : Type} [DecidableEq α] (delimiter : α) (chunk : List α) :
    upTo delimiter chunk = chunk ↔ delimiter ∉ chunk.dropLast := by
  by_cases present : delimiter ∈ chunk
  · obtain ⟨body, rest, rfl, absent⟩ := split_first delimiter chunk present
    rw [up_to_close delimiter body rest absent]
    cases rest with
    | nil => simp [absent]
    | cons y tail => simp
  · refine ⟨fun _ member => present (List.dropLast_subset _ member), fun _ => up_to_open delimiter chunk present⟩

theorem foldl_feed_open {α : Type} [DecidableEq α] (delimiter : α) (framed : Framed α) (chunk : List α)
    (absent : delimiter ∉ chunk) :
    chunk.foldl (feed delimiter) framed = ⟨framed.lines, framed.tail ++ chunk⟩ := by
  induction chunk generalizing framed with
  | nil => simp
  | cons x rest ih =>
      have different : x ≠ delimiter := fun same => absent (by simp [same])
      rw [List.foldl_cons, feed, if_neg different, ih _ (fun member => absent (by simp [member]))]
      simp

theorem frame_append_open {α : Type} [DecidableEq α] (delimiter : α) (stream chunk : List α)
    (absent : delimiter ∉ chunk) :
    frame delimiter (stream ++ chunk) = ⟨(frame delimiter stream).lines, (frame delimiter stream).tail ++ chunk⟩ := by
  rw [frame, List.foldl_append, foldl_feed_open delimiter _ chunk absent, frame]

theorem frame_append_line {α : Type} [DecidableEq α] (delimiter : α) (stream line : List α)
    (isLine : IsLine delimiter line) :
    frame delimiter (stream ++ line) =
      ⟨(frame delimiter stream).lines ++ [(frame delimiter stream).tail ++ line], []⟩ := by
  obtain ⟨body, rfl, absent⟩ := isLine
  rw [← List.append_assoc, frame, List.foldl_append, ← frame, frame_append_open delimiter stream body absent]
  simp [feed]

theorem feed_framing {α : Type} [DecidableEq α] (delimiter : α) (stream : List α) (framed : Framed α) (x : α)
    (framing : IsFraming delimiter stream framed) :
    IsFraming delimiter (stream ++ [x]) (feed delimiter framed x) := by
  by_cases same : x = delimiter
  · subst x
    rw [feed, if_pos rfl]
    refine ⟨by simp [← framing.complete], ?_, by simp⟩
    intro line member
    rcases List.mem_append.mp member with old | fresh
    · exact framing.lines line old
    · rw [List.mem_singleton.mp fresh]
      exact ⟨framed.tail, rfl, framing.tail⟩
  · rw [feed, if_neg same]
    exact ⟨by simp [← framing.complete], framing.lines, by simp [framing.tail, Ne.symm same]⟩

theorem frame_framing {α : Type} [DecidableEq α] (delimiter : α) (stream : List α) :
    IsFraming delimiter stream (frame delimiter stream) := by
  induction stream using List.reverseRecOn with
  | nil => exact ⟨rfl, by simp [frame], by simp [frame]⟩
  | append_singleton front x ih =>
      rw [frame, List.foldl_append]
      exact feed_framing delimiter front _ x ih

end Framing
