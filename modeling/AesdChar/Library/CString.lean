import Mathlib.Data.List.Infix

set_option autoImplicit false

namespace CString

-- The string functions of C on one block of memory. none: the function leaves
-- the block, which is undefined behaviour.
def strlen (block : List UInt8) : Option Nat := block.idxOf? 0

def strcpy (target source : List UInt8) : Option (List UInt8) :=
  match strlen source with
  | none => none
  | some n => if n + 1 ≤ target.length then some (source.take (n + 1) ++ target.drop (n + 1)) else none

-- The search stops at the first match, so that only a search without one
-- needs all count bytes.
def memchr (block : List UInt8) (c : UInt8) (count : Nat) : Option (Option Nat) :=
  match (block.take count).idxOf? c with
  | some index => some (some index)
  | none => if count ≤ block.length then some none else none

-- strncmp(block, other, count) == 0, for a string constant other.
def strncmpEq : List UInt8 → List UInt8 → Nat → Option Bool
  | _, _, 0 => some true
  | [], _, _ + 1 => none
  | x :: _, [], _ + 1 => some (x == 0)
  | x :: block, y :: other, count + 1 =>
      if x ≠ y then some false else if x = 0 then some true else strncmpEq block other count

theorem idx_of_split {α : Type} [DecidableEq α] (block : List α) (c : α) (n : Nat) (found : block.idxOf? c = some n) :
    ∃ front rest, block = front ++ c :: rest ∧ c ∉ front ∧ front.length = n := by
  induction block generalizing n with
  | nil => simp at found
  | cons x tail ih =>
      rw [List.idxOf?_cons] at found
      by_cases same : x = c
      · simp only [same, beq_self_eq_true, if_true, Option.some.injEq] at found
        exact ⟨[], tail, by rw [same]; rfl, by simp, found⟩
      · simp only [beq_iff_eq, same, if_false, Option.map_eq_some_iff] at found
        obtain ⟨before, inTail, next⟩ := found
        obtain ⟨front, rest, split, absent, length⟩ := ih before inTail
        exact ⟨x :: front, rest, by rw [split]; rfl, by simp [absent, Ne.symm same], by simp [length, next]⟩

theorem idx_of_front {α : Type} [DecidableEq α] (front rest : List α) (c : α) (absent : c ∉ front) :
    (front ++ c :: rest).idxOf? c = some front.length := by
  induction front with
  | nil => simp [List.idxOf?_cons]
  | cons x tail ih =>
      have different : x ≠ c := fun same => absent (by simp [same])
      have later := ih fun member => absent (by simp [member])
      simp [List.idxOf?_cons, different, later]

theorem strlen_split (block : List UInt8) (n : Nat) (measured : strlen block = some n) :
    ∃ text rest, block = text ++ 0 :: rest ∧ 0 ∉ text ∧ text.length = n := idx_of_split block 0 n measured

theorem strlen_text (text rest : List UInt8) (absent : 0 ∉ text) : strlen (text ++ 0 :: rest) = some text.length :=
  idx_of_front text rest 0 absent

theorem strcpy_text (target text rest : List UInt8) (absent : 0 ∉ text) (room : text.length + 1 ≤ target.length) :
    strcpy target (text ++ 0 :: rest) = some (text ++ 0 :: target.drop (text.length + 1)) := by
  have front : (text ++ 0 :: rest).take (text.length + 1) = text ++ [0] := by
    rw [List.take_append, List.take_of_length_le (by omega)]
    simp
  simp only [strcpy, strlen_text text rest absent, if_pos room, front, List.append_assoc, List.singleton_append]

theorem strcpy_split (target source copied : List UInt8) (done : strcpy target source = some copied) :
    ∃ text rest, source = text ++ 0 :: rest ∧ 0 ∉ text ∧ text.length + 1 ≤ target.length ∧
      copied = text ++ 0 :: target.drop (text.length + 1) := by
  cases measured : strlen source with
  | none => simp [strcpy, measured] at done
  | some n =>
      obtain ⟨text, rest, split, absent, length⟩ := strlen_split source n measured
      by_cases room : n + 1 ≤ target.length
      · subst split length
        rw [strcpy_text target text rest absent room] at done
        exact ⟨text, rest, rfl, absent, room, (Option.some.inj done).symm⟩
      · simp [strcpy, measured, room] at done

theorem memchr_absent (block : List UInt8) (c : UInt8) (count : Nat) (answer : Option Nat) (absent : c ∉ block)
    (searched : memchr block c count = some answer) : count ≤ block.length := by
  have none : (block.take count).idxOf? c = none := by
    rw [List.idxOf?_eq_none_iff]
    exact fun member => absent (List.mem_of_mem_take member)
  simp only [memchr, none] at searched
  by_contra short
  simp [short] at searched

theorem memchr_present (block : List UInt8) (c : UInt8) (count : Nat) (present : c ∈ block.take count) :
    ∃ index, memchr block c count = some (some index) := by
  cases found : (block.take count).idxOf? c with
  | none => exact absurd present (List.idxOf?_eq_none_iff.mp found)
  | some index => exact ⟨index, by simp only [memchr, found]⟩

-- Against a constant without a NUL in its first count bytes the comparison
-- ends inside every block that holds a NUL.
theorem strncmp_front (text rest other : List UInt8) (count : Nat) (long : count ≤ other.length)
    (plain : 0 ∉ other.take count) :
    strncmpEq (text ++ 0 :: rest) other count = some (decide (other.take count <+: text)) := by
  induction count generalizing text other with
  | zero => simp [strncmpEq]
  | succ count ih =>
      cases other with
      | nil => simp at long
      | cons y other =>
          have yPlain : y ≠ 0 := fun zero => plain (by simp [zero])
          have later : 0 ∉ other.take count := fun member => plain (by simp [member])
          cases text with
          | nil => simp [strncmpEq, Ne.symm yPlain]
          | cons x text =>
              by_cases same : x = y
              · subst same
                have next := ih text other (by simpa using long) later
                simp [strncmpEq, yPlain, next, List.cons_prefix_cons]
              · simp [strncmpEq, same, List.cons_prefix_cons, Ne.symm same]

def text (block : List UInt8) : List UInt8 := block.takeWhile fun c => c != 0

theorem text_front (front rest : List UInt8) (absent : 0 ∉ front) : text (front ++ 0 :: rest) = front := by
  induction front with
  | nil => simp [text]
  | cons c tail ih =>
      have nonzero : c ≠ 0 := fun zero => absent (by simp [zero])
      have later := ih fun member => absent (List.mem_cons_of_mem _ member)
      simp only [text] at later
      simp [text, nonzero, later]

theorem text_split (block : List UInt8) (ended : 0 ∈ block) :
    0 ∉ text block ∧ ∃ rest, block = text block ++ 0 :: rest := by
  cases found : block.idxOf? 0 with
  | none => exact absurd ended (List.idxOf?_eq_none_iff.mp found)
  | some n =>
      obtain ⟨front, rest, split, absent, _⟩ := idx_of_split block 0 n found
      have same : text block = front := by rw [split, text_front front rest absent]
      exact ⟨same ▸ absent, rest, same ▸ split⟩

theorem strlen_open (block : List UInt8) (unended : 0 ∉ block) : strlen block = none :=
    List.idxOf?_eq_none_iff.mpr unended

theorem memchr_inside (block : List UInt8) (c : UInt8) (count : Nat) :
    memchr block c count ≠ none ↔ c ∈ block.take count ∨ count ≤ block.length := by
  cases found : (block.take count).idxOf? c with
  | none =>
      have absent := List.idxOf?_eq_none_iff.mp found
      by_cases long : count ≤ block.length
      · simp [memchr, found, long]
      · simp [memchr, found, long, absent]
  | some index =>
      have present : c ∈ block.take count := by
        by_contra absent
        rw [List.idxOf?_eq_none_iff.mpr absent] at found
        cases found
      simp [memchr, found, present]

theorem memchr_found (block : List UInt8) (c : UInt8) (count : Nat) (answer : Option Nat)
    (searched : memchr block c count = some answer) : answer.isSome = decide (c ∈ block.take count) := by
  by_cases present : c ∈ block.take count
  · obtain ⟨index, found⟩ := memchr_present block c count present
    rw [found] at searched
    cases searched
    simp [present]
  · have absent := List.idxOf?_eq_none_iff.mpr present
    by_cases long : count ≤ block.length
    · simp only [memchr, absent, if_pos long, Option.some.injEq] at searched
      simp [← searched, present]
    · simp [memchr, absent, long] at searched

-- What strcpy makes of a block that has room for the text.
def overwrite (text block : List UInt8) : List UInt8 := text ++ 0 :: block.drop (text.length + 1)

theorem overwrite_length (text block : List UInt8) (room : text.length + 1 ≤ block.length) :
    (overwrite text block).length = block.length := by
  rw [overwrite, List.length_append, List.length_cons, List.length_drop]
  omega

theorem overwrite_prefix (text block below : List UInt8) (count : Nat) (lower : block.take count <+: below) :
    (overwrite text block).take count <+: overwrite text below := by
  have split : ∀ old : List UInt8, overwrite text old = (text ++ [0]) ++ old.drop (text.length + 1) := by
    intro old
    rw [overwrite, List.append_assoc, List.singleton_append]
  have length : (text ++ [0]).length = text.length + 1 := by rw [List.length_append, List.length_singleton]
  rw [split, split]
  by_cases inside : count ≤ text.length + 1
  · rw [List.take_append_of_le_length (by omega)]
    exact (List.take_prefix _ _).trans (List.prefix_append _ _)
  · rw [List.take_append, List.take_of_length_le (by omega), length, ← List.drop_take]
    exact (List.prefix_append_right_inj _).mpr (List.IsPrefix.drop lower _)

theorem overwrite_drop (text block : List UInt8) (count : Nat) (past : text.length < count) :
    (overwrite text block).drop count = block.drop count := by
  obtain ⟨more, rfl⟩ := Nat.exists_eq_add_of_le past
  rw [overwrite, List.drop_append, List.drop_eq_nil_of_le (by omega)]
  have left : text.length.succ + more - text.length = more + 1 := by omega
  rw [left, List.drop_succ_cons, List.drop_drop, List.nil_append]

theorem overwrite_front (text block : List UInt8) (count : Nat) (early : count ≤ text.length) :
    (overwrite text block).drop count = text.drop count ++ 0 :: block.drop (text.length + 1) := by
  rw [overwrite, List.drop_append_of_le_length early]

end CString
