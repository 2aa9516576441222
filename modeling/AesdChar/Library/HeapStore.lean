import Mathlib.Logic.Function.Basic

set_option autoImplicit false

namespace HeapStore

-- A heap of live blocks and one record outside it.
abbrev Blocks (α β : Type) := α → Option β

structure Store (α β δ : Type) where
  heap : Blocks α β
  dev : δ

def Live {α β : Type} (heap : Blocks α β) (a : α) : Prop := ∃ block, heap a = some block

def Apart {α β : Type} (heap extra : Blocks α β) : Prop := ∀ a, heap a = none ∨ extra a = none

def union {α β : Type} (heap extra : Blocks α β) : Blocks α β := fun a => (heap a).or (extra a)

def noBlocks {α β : Type} : Blocks α β := fun _ => none

def Store.extend {α β δ : Type} (store : Store α β δ) (extra : Blocks α β) : Store α β δ :=
  ⟨union store.heap extra, store.dev⟩

section

variable {α β : Type}

@[simp] theorem no_blocks_union (heap : Blocks α β) : union noBlocks heap = heap := rfl

@[simp] theorem union_no_blocks (heap : Blocks α β) : union heap noBlocks = heap := by
  funext a
  simp [union, noBlocks]

theorem no_blocks_apart (heap : Blocks α β) : Apart noBlocks heap := fun _ => Or.inl rfl

theorem apart_no_blocks (heap : Blocks α β) : Apart heap noBlocks := fun _ => Or.inr rfl

theorem union_left (heap extra : Blocks α β) (a : α) (block : β) (live : heap a = some block) :
    union heap extra a = some block := by
  simp [union, live]

theorem union_right (heap extra : Blocks α β) (a : α) (absent : heap a = none) : union heap extra a = extra a := by
  simp [union, absent]

theorem union_absent (heap extra : Blocks α β) (a : α) : union heap extra a = none ↔ heap a = none ∧
    extra a = none := by
  simp [union]

theorem live_apart (heap extra : Blocks α β) (a : α) (block : β) (apart : Apart heap extra)
    (live : heap a = some block) : extra a = none := by
  rcases apart a with absent | free
  · rw [absent] at live
    cases live
  · exact free

variable [DecidableEq α]

theorem live_update (heap : Blocks α β) (a b : α) (block : β) (live : Live (Function.update heap a (some block)) b) :
    b = a ∨ Live heap b := by
  by_cases same : b = a
  · exact Or.inl same
  · rw [Live, Function.update_of_ne same] at live
    exact Or.inr live

theorem live_release (heap : Blocks α β) (a b : α) (live : Live (Function.update heap a none) b) :
    b ≠ a ∧ Live heap b := by
  by_cases same : b = a
  · obtain ⟨block, here⟩ := live
    rw [same, Function.update_self] at here
    cases here
  · rw [Live, Function.update_of_ne same] at live
    exact ⟨same, live⟩

theorem apart_update (heap extra : Blocks α β) (a : α) (block : Option β) (apart : Apart heap extra)
    (free : extra a = none) : Apart (Function.update heap a block) extra := by
  intro b
  by_cases same : b = a
  · exact Or.inr (same ▸ free)
  · rw [Function.update_of_ne same]
    exact apart b

theorem update_union (heap extra : Blocks α β) (a : α) (block : Option β) (free : extra a = none) :
    union (Function.update heap a block) extra = Function.update (union heap extra) a block := by
  funext b
  by_cases same : b = a
  · subst same
    simp [union, free]
  · simp [union, Function.update_of_ne same]

end

-- A heap split among owners: every address is in the hands of one of them.
def Split {α β ο : Type} [DecidableEq ο] (heap : Blocks α β) (parts : ο → Blocks α β) : Prop :=
  ∃ holder : α → ο, ∀ owner a, parts owner a = if holder a = owner then heap a else none

section

variable {α β ο : Type} [DecidableEq ο] {heap : Blocks α β} {parts : ο → Blocks α β}

theorem split_apart (split : Split heap parts) (owner other : ο) (different : owner ≠ other) :
    Apart (parts owner) (parts other) := by
  obtain ⟨holder, held⟩ := split
  intro a
  by_cases mine : holder a = owner
  · exact Or.inr (by rw [held, if_neg fun same => different (mine.symm.trans same)])
  · exact Or.inl (by rw [held, if_neg mine])

theorem split_only (split : Split heap parts) (owner : ο) (alone : ∀ other, other ≠ owner → parts other = noBlocks) :
    heap = parts owner := by
  obtain ⟨holder, held⟩ := split
  funext a
  by_cases mine : holder a = owner
  · rw [held, if_pos mine]
  · have absent := held (holder a) a
    rw [alone _ mine, if_pos rfl] at absent
    rw [held, if_neg mine, ← absent]
    rfl

theorem split_change (split : Split heap parts) (owner : ο) :
    ∃ rest, Apart (parts owner) rest ∧ heap = union (parts owner) rest ∧
      ∀ next, Apart next rest → Split (union next rest) (Function.update parts owner next) := by
  obtain ⟨holder, held⟩ := split
  refine ⟨fun a => if holder a = owner then none else heap a, ?_, ?_, ?_⟩
  · intro a
    by_cases mine : holder a = owner
    · exact Or.inr (if_pos mine)
    · exact Or.inl (by rw [held, if_neg mine])
  · funext a
    by_cases mine : holder a = owner <;> simp [union, held, mine]
  · intro next apart
    refine ⟨fun a => if (next a).isSome then owner else holder a, fun other a => ?_⟩
    have apartHere := apart a
    by_cases same : other = owner
    · subst same
      rw [Function.update_self]
      cases live : next a <;> by_cases mine : holder a = other <;> simp [union, live, mine]
    · rw [Function.update_of_ne same]
      cases live : next a with
      | none => grind [union]
      | some block => grind [union]

theorem split_transfer (split : Split heap parts) (one two : ο) (different : one ≠ two) (left right : Blocks α β)
    (apart : Apart left right) (whole : union left right = union (parts one) (parts two)) :
    Split heap (Function.update (Function.update parts one left) two right) := by
  obtain ⟨holder, held⟩ := split
  refine ⟨fun a => if holder a = one ∨ holder a = two then if (left a).isSome then one else two else holder a, ?_⟩
  intro other a
  have apartHere := apart a
  have shared : (left a).or (right a) = if holder a = one ∨ holder a = two then heap a else none := by
    have wholeHere := congrFun whole a
    rw [union, union, held, held] at wholeHere
    rw [wholeHere]
    by_cases first : holder a = one <;> by_cases second :
      holder a = two <;> simp [first, second, different, Ne.symm different]
  by_cases isTwo : other = two
  · subst isTwo
    rw [Function.update_self]
    cases live : left a <;> simp only [live, Option.none_or, Option.some_or] at shared <;> grind
  · rw [Function.update_of_ne isTwo]
    by_cases isOne : other = one
    · subst isOne
      rw [Function.update_self]
      cases live : left a <;> simp only [live, Option.none_or, Option.some_or] at shared <;> grind
    · rw [Function.update_of_ne isOne, held]
      grind

end

end HeapStore
