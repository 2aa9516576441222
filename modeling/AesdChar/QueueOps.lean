import AesdChar.QueueLinks
import Mathlib.Data.Fintype.Basic

set_option autoImplicit false

namespace AesdChar

variable {H P N : Type} [DecidableEq H]

-- The rows of queue.h's table that change a queue.
inductive QueueOp (H P : Type) where
  | init (head : H)
  | insertHead (head : H) (elm : P)
  | insertTail (head : H) (elm : P)
  | insertBefore (head : H) (listelm elm : P)
  | insertAfter (head : H) (listelm elm : P)
  | concat (head1 head2 : H)
  | removeHead (head : H)
  | removeHeadUntil (head : H) (elm : P)
  | removeAfter (head : H) (elm : P)
  | remove (head : H) (elm : P)
  | replace (head : H) (elm elm2 : P)
  | swap (head1 head2 : H)
deriving DecidableEq, Repr

-- What the caller of a macro has to see to.
def QueueOp.Allowed (nodes : P → Prop) (lists : H → List P) : QueueOp H P → Prop
  | .init _ => True
  | .insertHead _ elm => Spare nodes lists elm
  | .insertTail _ elm => Spare nodes lists elm
  | .insertBefore head listelm elm => listelm ∈ lists head ∧ Spare nodes lists elm
  | .insertAfter head listelm elm => listelm ∈ lists head ∧ Spare nodes lists elm
  | .concat head1 head2 => head1 ≠ head2
  | .removeHead head => lists head ≠ []
  | .removeHeadUntil head elm => elm ∈ lists head
  | .removeAfter head elm => elm ∈ lists head ∧ (lists head).getLast? ≠ some elm
  | .remove head elm => elm ∈ lists head
  | .replace head elm elm2 => elm ∈ lists head ∧ Spare nodes lists elm2
  | .swap head1 head2 => head1 ≠ head2

instance (nodes : P → Prop) [DecidablePred nodes] [Fintype H] [DecidableEq P] (lists : H → List P) (p : P) :
    Decidable (Spare nodes lists p) :=
  inferInstanceAs (Decidable (nodes p ∧ ∀ h, p ∉ lists h))

instance (nodes : P → Prop) [DecidablePred nodes] [Fintype H] [DecidableEq P] (lists : H → List P) :
    (op : QueueOp H P) → Decidable (op.Allowed nodes lists)
  | .init _ => inferInstanceAs (Decidable True)
  | .insertHead _ elm => inferInstanceAs (Decidable (Spare nodes lists elm))
  | .insertTail _ elm => inferInstanceAs (Decidable (Spare nodes lists elm))
  | .insertBefore head listelm elm => inferInstanceAs (Decidable (listelm ∈ lists head ∧ Spare nodes lists elm))
  | .insertAfter head listelm elm => inferInstanceAs (Decidable (listelm ∈ lists head ∧ Spare nodes lists elm))
  | .concat head1 head2 => inferInstanceAs (Decidable (head1 ≠ head2))
  | .removeHead head => inferInstanceAs (Decidable (lists head ≠ []))
  | .removeHeadUntil head elm => inferInstanceAs (Decidable (elm ∈ lists head))
  | .removeAfter head elm => inferInstanceAs (Decidable (elm ∈ lists head ∧ (lists head).getLast? ≠ some elm))
  | .remove head elm => inferInstanceAs (Decidable (elm ∈ lists head))
  | .replace head elm elm2 => inferInstanceAs (Decidable (elm ∈ lists head ∧ Spare nodes lists elm2))
  | .swap head1 head2 => inferInstanceAs (Decidable (head1 ≠ head2))

-- The same on lists.
def QueueOp.apply [DecidableEq P] (lists : H → List P) : QueueOp H P → H → List P
  | .init head => Function.update lists head []
  | .insertHead head elm => Function.update lists head (elm :: lists head)
  | .insertTail head elm => Function.update lists head (lists head ++ [elm])
  | .insertBefore head listelm elm =>
      Function.update lists head ((lists head).flatMap fun p => if p = listelm then [elm, p] else [p])
  | .insertAfter head listelm elm =>
      Function.update lists head ((lists head).flatMap fun p => if p = listelm then [p, elm] else [p])
  | .concat head1 head2 => Function.update (Function.update lists head2 []) head1 (lists head1 ++ lists head2)
  | .removeHead head => Function.update lists head (lists head).tail
  | .removeHeadUntil head elm => Function.update lists head ((lists head).drop ((lists head).idxOf elm + 1))
  | .removeAfter head elm => Function.update lists head ((lists head).eraseIdx ((lists head).idxOf elm + 1))
  | .remove head elm => Function.update lists head ((lists head).erase elm)
  | .replace head elm elm2 => Function.update lists head ((lists head).map fun p => if p = elm then elm2 else p)
  | .swap head1 head2 => Function.update (Function.update lists head1 (lists head2)) head2 (lists head1)

def QueueOp.queue : QueueOp H P → H
  | .init head => head
  | .insertHead head _ => head
  | .insertTail head _ => head
  | .insertBefore head _ _ => head
  | .insertAfter head _ _ => head
  | .concat head1 _ => head1
  | .removeHead head => head
  | .removeHeadUntil head _ => head
  | .removeAfter head _ => head
  | .remove head _ => head
  | .replace head _ _ => head
  | .swap head1 _ => head1

-- A macro on the memory, with the most rounds its loop may take. none: it
-- touches a field that is not there, or its loop goes on.
abbrev Macro (H P N : Type) := Nat → Cells H P N → Option (Cells H P N)

-- Which macros a structure has, and what it keeps.
structure QueueKind (H P N : Type) where
  layout : QueueLayout H P N
  code : QueueOp H P → Option (Macro H P N)

def Implements [DecidableEq P] (kind : QueueKind H P N) : Prop :=
  ∀ (nodes : P → Prop) (cells : Cells H P N) (lists : H → List P) (op : QueueOp H P) (run : Macro H P N),
    kind.code op = some run → op.Allowed nodes lists → Holds kind.layout nodes cells lists →
    ∃ after, (∀ rounds, (lists op.queue).length ≤ rounds → run rounds cells = some after) ∧
      Holds kind.layout nodes after (op.apply lists)

def runMacros (kind : QueueKind H P N) (rounds : Nat) : List (QueueOp H P) → Cells H P N → Option (Cells H P N)
  | [], cells => some cells
  | op :: later, cells =>
      match kind.code op with
      | none => none
      | some run => (run rounds cells).bind (runMacros kind rounds later)

-- A run of macros that the structure has, each one allowed at its turn.
inductive AllowedRun [DecidableEq P] (kind : QueueKind H P N) (nodes : P → Prop) :
    (H → List P) → List (QueueOp H P) → (H → List P) → Prop where
  | nil (lists : H → List P) : AllowedRun kind nodes lists [] lists
  | cons (lists after : H → List P) (op : QueueOp H P) (later : List (QueueOp H P)) (has : (kind.code op).isSome)
      (allowed : op.Allowed nodes lists) (rest : AllowedRun kind nodes (op.apply lists) later after) :
      AllowedRun kind nodes lists (op :: later) after

-- Memory with every head as INIT leaves it.
structure Fresh (layout : QueueLayout H P N) (nodes : P → Prop) (cells : Cells H P N) : Prop where
  heads : ∀ h, Linked layout cells h (.head h) (.head h)
  next : ∀ p, nodes p → (cells.next (.elm p)).isSome
  prev : ∀ p, nodes p → layout.kept (.elm p) → (cells.prev (.elm p)).isSome

omit [DecidableEq H] in
theorem holds_fresh (layout : QueueLayout H P N) (nodes : P → Prop) (cells : Cells H P N)
    (fresh : Fresh layout nodes cells) :
    Holds layout nodes cells fun _ => [] where
  ring h := .cons_cons (fresh.heads h) (.singleton _)
  once := by simp
  apart := by simp
  inNodes := by simp
  next := fresh.next
  prev := fresh.prev

theorem runs_hold [DecidableEq P] (kind : QueueKind H P N) (sound : Implements kind) (nodes : P → Prop)
    (ops : List (QueueOp H P)) (lists final : H → List P) (cells : Cells H P N)
    (run : AllowedRun kind nodes lists ops final) (holds : Holds kind.layout nodes cells lists) :
    ∃ enough after, (∀ rounds, enough ≤ rounds → runMacros kind rounds ops cells = some after) ∧
      Holds kind.layout nodes after final := by
  induction run generalizing cells with
  | nil lists => exact ⟨0, cells, fun _ _ => rfl, holds⟩
  | cons lists final op later has allowed rest ih =>
      obtain ⟨code, isCode⟩ := Option.isSome_iff_exists.mp has
      obtain ⟨next, ran, nextHolds⟩ := sound nodes cells lists op code isCode allowed holds
      obtain ⟨enough, after, later, afterHolds⟩ := ih next nextHolds
      refine ⟨max (lists op.queue).length enough, after, fun rounds most => ?_, afterHolds⟩
      simp only [runMacros, isCode, ran rounds (by omega), Option.bind_some]
      exact later rounds (by omega)

section

variable [DecidableEq P]

theorem flat_map_others (list : List P) (q : P) (new : P → List P) (absent : q ∉ list) :
    (list.flatMap fun p => if p = q then new p else [p]) = list := by
  induction list with
  | nil => rfl
  | cons p list ih =>
      obtain ⟨other, later⟩ := not_or.mp (List.mem_cons.not.mp absent)
      rw [List.flatMap_cons, if_neg (Ne.symm other), ih later]
      rfl

theorem map_others (list : List P) (q p : P) (absent : q ∉ list) :
    (list.map fun x => if x = q then p else x) = list := by
  induction list with
  | nil => rfl
  | cons x list ih =>
      obtain ⟨other, later⟩ := not_or.mp (List.mem_cons.not.mp absent)
      rw [List.map_cons, if_neg (Ne.symm other), ih later]

omit [DecidableEq P] in
theorem split_once (list : List P) (q : P) (once : list.Nodup) (member : q ∈ list) :
    ∃ front rest, list = front ++ q :: rest ∧ q ∉ front ∧ q ∉ rest := by
  obtain ⟨front, rest, rfl⟩ := List.append_of_mem member
  obtain ⟨_, restOnce, apart⟩ := List.nodup_append.mp once
  exact ⟨front, rest, rfl, fun inFront => apart q inFront q (by simp) rfl, (List.nodup_cons.mp restOnce).1⟩

section

variable (lists : H → List P) (h : H) (q p : P) (front rest : List P) (split : lists h = front ++ q :: rest)
  (notFront : q ∉ front) (notRest : q ∉ rest)

include split notFront

theorem apply_remove_until :
    (QueueOp.removeHeadUntil h q).apply lists = Function.update lists h rest := by
  rw [QueueOp.apply, split, List.idxOf_append_of_notMem notFront, List.idxOf_cons_self, Nat.add_zero, List.drop_append,
    List.drop_eq_nil_of_le (Nat.le_succ _)]
  simp

theorem apply_remove_after :
    (QueueOp.removeAfter h q).apply lists = Function.update lists h (front ++ q :: rest.tail) := by
  rw [QueueOp.apply, split, List.idxOf_append_of_notMem notFront, List.idxOf_cons_self, Nat.add_zero,
    List.eraseIdx_append_of_length_le (by omega)]
  simp

theorem apply_remove : (QueueOp.remove h q).apply lists = Function.update lists h (front ++ rest) := by
  rw [QueueOp.apply, split, List.erase_append_right _ notFront, List.erase_cons_head]

include notRest

theorem apply_insert_before :
    (QueueOp.insertBefore h q p).apply lists = Function.update lists h (front ++ p :: q :: rest) := by
  rw [QueueOp.apply, split, List.flatMap_append, List.flatMap_cons, flat_map_others front q (fun x => [p, x]) notFront,
    flat_map_others rest q (fun x => [p, x]) notRest, if_pos rfl]
  rfl

theorem apply_insert_after :
    (QueueOp.insertAfter h q p).apply lists = Function.update lists h (front ++ q :: p :: rest) := by
  rw [QueueOp.apply, split, List.flatMap_append, List.flatMap_cons, flat_map_others front q (fun x => [x, p]) notFront,
    flat_map_others rest q (fun x => [x, p]) notRest, if_pos rfl]
  rfl

theorem apply_replace : (QueueOp.replace h q p).apply lists = Function.update lists h (front ++ p :: rest) := by
  rw [QueueOp.apply, split, List.map_append, List.map_cons, map_others front q p notFront, map_others rest q p notRest,
    if_pos rfl]

end

-- The same as apply, with the queue cut at the element that the macro names.
inductive Splits (nodes : P → Prop) (lists : H → List P) : QueueOp H P → (H → List P) → Prop where
  | init (h : H) : Splits nodes lists (.init h) (Function.update lists h [])
  | insertHead (h : H) (p : P) (spare : Spare nodes lists p) :
      Splits nodes lists (.insertHead h p) (Function.update lists h (p :: lists h))
  | insertTail (h : H) (p : P) (spare : Spare nodes lists p) :
      Splits nodes lists (.insertTail h p) (Function.update lists h (lists h ++ [p]))
  | insertBefore (h : H) (q p : P) (front rest : List P) (split : lists h = front ++ q :: rest)
      (spare : Spare nodes lists p) :
      Splits nodes lists (.insertBefore h q p) (Function.update lists h (front ++ p :: q :: rest))
  | insertAfter (h : H) (q p : P) (front rest : List P) (split : lists h = front ++ q :: rest)
      (spare : Spare nodes lists p) :
      Splits nodes lists (.insertAfter h q p) (Function.update lists h (front ++ q :: p :: rest))
  | concat (h k : H) (other : h ≠ k) :
      Splits nodes lists (.concat h k) (Function.update (Function.update lists k []) h (lists h ++ lists k))
  | removeHead (h : H) (p : P) (rest : List P) (split : lists h = p :: rest) :
      Splits nodes lists (.removeHead h) (Function.update lists h rest)
  | removeHeadUntil (h : H) (q : P) (front rest : List P) (split : lists h = front ++ q :: rest) :
      Splits nodes lists (.removeHeadUntil h q) (Function.update lists h rest)
  | removeAfter (h : H) (q p : P) (front rest : List P) (split : lists h = front ++ q :: p :: rest) :
      Splits nodes lists (.removeAfter h q) (Function.update lists h (front ++ q :: rest))
  | remove (h : H) (q : P) (front rest : List P) (split : lists h = front ++ q :: rest) :
      Splits nodes lists (.remove h q) (Function.update lists h (front ++ rest))
  | replace (h : H) (q p : P) (front rest : List P) (split : lists h = front ++ q :: rest)
      (spare : Spare nodes lists p) :
      Splits nodes lists (.replace h q p) (Function.update lists h (front ++ p :: rest))
  | swap (h k : H) (other : h ≠ k) :
      Splits nodes lists (.swap h k) (Function.update (Function.update lists h (lists k)) k (lists h))

theorem allowed_splits (nodes : P → Prop) (lists : H → List P) (once : ∀ h, (lists h).Nodup) (op : QueueOp H P)
    (allowed : op.Allowed nodes lists) : Splits nodes lists op (op.apply lists) := by
  have finds : ∀ h q, q ∈ lists h → ∃ front rest, lists h = front ++ q :: rest ∧ q ∉ front ∧ q ∉ rest := fun h q =>
    split_once (lists h) q (once h)
  cases op with
  | init h => exact .init h
  | insertHead h p => exact .insertHead h p allowed
  | insertTail h p => exact .insertTail h p allowed
  | insertBefore h q p =>
      obtain ⟨front, rest, split, notFront, notRest⟩ := finds h q allowed.1
      rw [apply_insert_before lists h q p front rest split notFront notRest]
      exact .insertBefore h q p front rest split allowed.2
  | insertAfter h q p =>
      obtain ⟨front, rest, split, notFront, notRest⟩ := finds h q allowed.1
      rw [apply_insert_after lists h q p front rest split notFront notRest]
      exact .insertAfter h q p front rest split allowed.2
  | concat h k => exact .concat h k allowed
  | removeHead h =>
      obtain ⟨p, rest, split⟩ := List.exists_cons_of_ne_nil allowed
      rw [QueueOp.apply, split, List.tail_cons]
      exact .removeHead h p rest split
  | removeHeadUntil h q =>
      obtain ⟨front, rest, split, notFront, _⟩ := finds h q allowed
      rw [apply_remove_until lists h q front rest split notFront]
      exact .removeHeadUntil h q front rest split
  | removeAfter h q =>
      obtain ⟨front, rest, split, notFront, _⟩ := finds h q allowed.1
      rw [apply_remove_after lists h q front rest split notFront]
      cases rest with
      | nil => exact absurd (by simp [split]) allowed.2
      | cons p rest => exact .removeAfter h q p front rest split
  | remove h q =>
      obtain ⟨front, rest, split, notFront, _⟩ := finds h q allowed
      rw [apply_remove lists h q front rest split notFront]
      exact .remove h q front rest split
  | replace h q p =>
      obtain ⟨front, rest, split, notFront, notRest⟩ := finds h q allowed.1
      rw [apply_replace lists h q p front rest split notFront notRest]
      exact .replace h q p front rest split allowed.2
  | swap h k => exact .swap h k allowed

theorem implements_splits (kind : QueueKind H P N)
    (each : ∀ (nodes : P → Prop) (cells : Cells H P N) (lists next : H → List P) (op : QueueOp H P) (run : Macro H P N),
      kind.code op = some run → Splits nodes lists op next → Holds kind.layout nodes cells lists →
      ∃ after, (∀ rounds, (lists op.queue).length ≤ rounds → run rounds cells = some after) ∧
        Holds kind.layout nodes after next) :
    Implements kind := by
  intro nodes cells lists op run has allowed holds
  exact each nodes cells lists (op.apply lists) op run has (allowed_splits nodes lists holds.once op allowed) holds

omit [DecidableEq H] [DecidableEq P] in
-- A macro with no loop.
theorem any_rounds (layout : QueueLayout H P N) (nodes : P → Prop) (next : H → List P) (most : Nat)
    (code : Option (Cells H P N)) (runs : ∃ after, code = some after ∧ Holds layout nodes after next) :
    ∃ after, (∀ rounds, most ≤ rounds → (fun _ => code) rounds = some after) ∧ Holds layout nodes after next := by
  obtain ⟨after, ran, holds⟩ := runs
  exact ⟨after, fun _ _ => ran, holds⟩

end

end AesdChar
