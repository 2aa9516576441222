import AesdChar.NullQueues

set_option autoImplicit false

namespace AesdChar

open LinkedRing

variable {H P : Type} [DecidableEq H] [DecidableEq P]

def slistInit (cells : NullCells H P) (head : H) : Option (NullCells H P) := cells.storeNext (.head head) none

def slistInsertHead (cells : NullCells H P) (head : H) (elm : P) : Option (NullCells H P) := do
  let first ← cells.next (.head head)
  let cells ← cells.storeNext (.elm elm) first
  cells.storeNext (.head head) (some elm)

def slistInsertAfter (cells : NullCells H P) (slistelm elm : P) : Option (NullCells H P) := do
  let next ← cells.next (.elm slistelm)
  let cells ← cells.storeNext (.elm elm) next
  cells.storeNext (.elm slistelm) (some elm)

def slistRemoveHead (cells : NullCells H P) (head : H) : Option (NullCells H P) := do
  let first ← cells.next (.head head)
  let next ← nextOf cells first
  cells.storeNext (.head head) next

def slistRemoveAfter (cells : NullCells H P) (slistelm : P) : Option (NullCells H P) := do
  let next ← cells.next (.elm slistelm)
  let next ← nextOf cells next
  cells.storeNext (.elm slistelm) next

def slistRemove (rounds : Nat) (cells : NullCells H P) (head : H) (elm : P) : Option (NullCells H P) := do
  let first ← cells.next (.head head)
  if first = some elm then slistRemoveHead cells head
  else do
    let curelm ← untilNext (fun curelm => cells.next (.elm curelm)) elm rounds first
    let next ← cells.next (.elm curelm)
    let next ← nextOf cells next
    cells.storeNext (.elm curelm) next

def slistSwap (cells : NullCells H P) (head1 head2 : H) : Option (NullCells H P) := do
  let swapFirst ← cells.next (.head head1)
  let first ← cells.next (.head head2)
  let cells ← cells.storeNext (.head head1) first
  cells.storeNext (.head head2) swapFirst

def slistLayout : QueueLayout H P (Option P) := ⟨fun _ => false, nullTarget⟩

def slistKind : QueueKind H P (Option P) where
  layout := slistLayout
  code
    | .init head => some fun _ cells => slistInit cells head
    | .insertHead head elm => some fun _ cells => slistInsertHead cells head elm
    | .insertAfter _ slistelm elm => some fun _ cells => slistInsertAfter cells slistelm elm
    | .removeHead head => some fun _ cells => slistRemoveHead cells head
    | .removeAfter _ slistelm => some fun _ cells => slistRemoveAfter cells slistelm
    | .remove head elm => some fun rounds cells => slistRemove rounds cells head elm
    | .swap head1 head2 => some fun _ cells => slistSwap cells head1 head2
    | .insertTail _ _ => none
    | .insertBefore _ _ _ => none
    | .concat _ _ => none
    | .removeHeadUntil _ _ => none
    | .replace _ _ _ => none

@[simp] theorem slist_set_back (cells : NullCells H P) (y x : Place H P) : cells.setBack slistLayout y x = cells := rfl

section

variable (nodes : P → Prop) (cells : NullCells H P) (lists : H → List P) (holds : Holds slistLayout nodes cells lists)

include holds

omit [DecidableEq H] [DecidableEq P] in
theorem slist_next (h : H) (front rest : List P) (a : Place H P) (split : lists h = front ++ rest)
    (before : PlaceBefore h front a) :
    cells.next a = some rest.head? :=
  null_next slistLayout rfl nodes cells lists holds h front rest a split before

-- The place before rest goes on behind the elements that are dropped.
theorem slist_cut (h : H) (front old rest : List P) (a : Place H P) (split : lists h = front ++ old ++ rest)
    (before : PlaceBefore h front a) :
    Holds slistLayout nodes (cells.setNext a rest.head?) (Function.update lists h (front ++ rest)) :=
  holds_unlink slistLayout nodes cells lists holds h front old rest a _ split before (null_behind h rest) rest.head? rfl

theorem slist_insert (h : H) (p : P) (front rest : List P) (a : Place H P) (split : lists h = front ++ rest)
    (before : PlaceBefore h front a) (spare : Spare nodes lists p) :
    ∃ after, ((cells.storeNext (.elm p) rest.head?).bind fun cells => cells.storeNext a (some p)) = some after ∧
      Holds slistLayout nodes after (Function.update lists h (front ++ p :: rest)) := by
  have read := slist_next nodes cells lists holds h front rest a split before
  have hasNext := holds.next p spare.1
  refine ⟨(cells.setNext (.elm p) rest.head?).setNext a (some p), ?_, ?_⟩
  · have readAfter : ((cells.setNext (.elm p) rest.head?).next a).isSome := by
      by_cases same : a = .elm p
      · simp [same]
      · simp [same, read]
    simp only [hasNext, store_next, Option.bind_some, readAfter]
  · exact holds_link_in slistLayout nodes cells lists holds h front [] rest a _ (by simp [split]) before
      (null_behind h rest) p (some p) rest.head? spare rfl rfl

theorem slist_init (h : H) :
    ∃ after, slistInit cells h = some after ∧ Holds slistLayout nodes after (Function.update lists h []) := by
  have first := slist_next nodes cells lists holds h [] (lists h) (.head h) rfl rfl
  refine ⟨_, ?_, slist_cut nodes cells lists holds h [] (lists h) [] (.head h) (by simp) rfl⟩
  simp [slistInit, first]

theorem slist_insert_head (h : H) (p : P) (spare : Spare nodes lists p) :
    ∃ after, slistInsertHead cells h p = some after ∧
      Holds slistLayout nodes after (Function.update lists h (p :: lists h)) := by
  have first := slist_next nodes cells lists holds h [] (lists h) (.head h) rfl rfl
  obtain ⟨after, ran, afterHolds⟩ := slist_insert nodes cells lists holds h p [] (lists h) (.head h) rfl rfl spare
  refine ⟨after, ?_, afterHolds⟩
  rw [slistInsertHead, first]
  exact ran

theorem slist_insert_after (h : H) (q p : P) (front rest : List P) (split : lists h = front ++ q :: rest)
    (spare : Spare nodes lists p) :
    ∃ after, slistInsertAfter cells q p = some after ∧
      Holds slistLayout nodes after (Function.update lists h (front ++ q :: p :: rest)) := by
  have whole : lists h = (front ++ [q]) ++ rest := by simp [split]
  have before := before_snoc h front q
  have next := slist_next nodes cells lists holds h (front ++ [q]) rest (.elm q) whole before
  obtain ⟨after, ran, afterHolds⟩ :=
    slist_insert nodes cells lists holds h p (front ++ [q]) rest (.elm q) whole before spare
  refine ⟨after, ?_, by simpa using afterHolds⟩
  rw [slistInsertAfter, next]
  exact ran

theorem slist_remove_head (h : H) (p : P) (rest : List P) (split : lists h = p :: rest) :
    ∃ after, slistRemoveHead cells h = some after ∧ Holds slistLayout nodes after (Function.update lists h rest) := by
  have first := slist_next nodes cells lists holds h [] (p :: rest) (.head h) split rfl
  have next := slist_next nodes cells lists holds h [p] rest (.elm p) split rfl
  refine ⟨_, ?_, slist_cut nodes cells lists holds h [] [p] rest (.head h) split rfl⟩
  simp [slistRemoveHead, nextOf, first, next]

theorem slist_remove_after (h : H) (q p : P) (front rest : List P) (split : lists h = front ++ q :: p :: rest) :
    ∃ after, slistRemoveAfter cells q = some after ∧
      Holds slistLayout nodes after (Function.update lists h (front ++ q :: rest)) := by
  have before := before_snoc h front q
  have first := slist_next nodes cells lists holds h (front ++ [q]) (p :: rest) (.elm q) (by simp [split]) before
  have next := slist_next nodes cells lists holds h (front ++ [q, p]) rest (.elm p) (by simp [split])
    (by simpa using before_snoc h (front ++ [q]) p)
  have dropped := slist_cut nodes cells lists holds h (front ++ [q]) [p] rest (.elm q) (by simp [split]) before
  refine ⟨_, ?_, by simpa using dropped⟩
  simp [slistRemoveAfter, nextOf, first, next]

theorem slist_remove (h : H) (q : P) (front rest : List P) (split : lists h = front ++ q :: rest) :
    ∃ after, (∀ rounds, (lists h).length ≤ rounds → slistRemove rounds cells h q = some after) ∧
      Holds slistLayout nodes after (Function.update lists h (front ++ rest)) := by
  have first := slist_next nodes cells lists holds h [] (lists h) (.head h) rfl rfl
  rcases List.eq_nil_or_concat' front with rfl | ⟨earlier, z, rfl⟩
  · obtain ⟨after, ran, afterHolds⟩ := slist_remove_head nodes cells lists holds h q rest split
    refine ⟨after, fun rounds _ => ?_, afterHolds⟩
    rw [slistRemove, first, split]
    exact (if_pos rfl).trans ran
  · have whole : lists h = earlier ++ z :: q :: rest := by simp [split]
    obtain ⟨after, ran, afterHolds⟩ := slist_remove_after nodes cells lists holds h z q earlier rest whole
    refine ⟨after, fun rounds enough => ?_, by simpa using afterHolds⟩
    have found := null_until slistLayout rfl nodes cells lists holds h earlier rest z q whole rounds enough
    have notFirst := null_not_first slistLayout nodes cells lists holds h earlier rest z q whole
    simp only [slistRemove, first, Option.bind_eq_bind, Option.bind_some, if_neg notFirst, found]
    exact ran

theorem slist_swap (h k : H) (other : h ≠ k) :
    ∃ after, slistSwap cells h k = some after ∧
      Holds slistLayout nodes after (Function.update (Function.update lists h (lists k)) k (lists h)) := by
  obtain ⟨a1, before1⟩ := place_before h (lists h)
  obtain ⟨a2, before2⟩ := place_before k (lists k)
  have read1 := slist_next nodes cells lists holds h [] (lists h) (.head h) rfl rfl
  have read2 := slist_next nodes cells lists holds k [] (lists k) (.head k) rfl rfl
  refine ⟨cells.exchange slistLayout h k (lists h).head? (lists k).head? a1 a2, ?_,
    holds_exchange slistLayout (null_ends_alike _) cells nodes lists holds h k other _ _ a1 a2 read1
      read2 before1 before2⟩
  simp [slistSwap, Cells.exchange, read1, read2, Ne.symm other]

end

theorem slist_implements : Implements (slistKind : QueueKind H P (Option P)) := by
  apply implements_splits
  intro nodes cells lists next op run has splits holds
  cases splits with
  | init h =>
      cases has
      exact any_rounds _ nodes _ _ _ (slist_init nodes cells lists holds h)
  | insertHead h p spare =>
      cases has
      exact any_rounds _ nodes _ _ _ (slist_insert_head nodes cells lists holds h p spare)
  | insertAfter h q p front rest split spare =>
      cases has
      exact any_rounds _ nodes _ _ _ (slist_insert_after nodes cells lists holds h q p front rest split spare)
  | removeHead h p rest split =>
      cases has
      exact any_rounds _ nodes _ _ _ (slist_remove_head nodes cells lists holds h p rest split)
  | removeAfter h q p front rest split =>
      cases has
      exact any_rounds _ nodes _ _ _ (slist_remove_after nodes cells lists holds h q p front rest split)
  | remove h q front rest split =>
      cases has
      exact slist_remove nodes cells lists holds h q front rest split
  | swap h k other =>
      cases has
      exact any_rounds _ nodes _ _ _ (slist_swap nodes cells lists holds h k other)
  | insertTail h p spare => cases has
  | insertBefore h q p front rest split spare => cases has
  | concat h k other => cases has
  | removeHeadUntil h q front rest split => cases has
  | replace h q p front rest split spare => cases has

def slistFirst (cells : NullCells H P) (head : H) : Option (Option P) := cells.next (.head head)

def slistNext (cells : NullCells H P) (elm : P) : Option (Option P) := cells.next (.elm elm)

def slistEmpty (cells : NullCells H P) (head : H) : Option Bool := (cells.next (.head head)).map Option.isNone

def slistForeach (rounds : Nat) (cells : NullCells H P) (head : H) : Option (List P) := do
  let first ← cells.next (.head head)
  foreachFrom (fun var => cells.next (.elm var)) rounds first

structure SlistReads (cells : NullCells H P) (lists : H → List P) : Prop where
  first : ∀ h, slistFirst cells h = some (lists h).head?
  next : ∀ h front q rest, lists h = front ++ q :: rest → slistNext cells q = some rest.head?
  empty : ∀ h, slistEmpty cells h = some (lists h).isEmpty
  foreach : ∀ h rounds, (lists h).length ≤ rounds → slistForeach rounds cells h = some (lists h)

omit [DecidableEq H] [DecidableEq P] in
theorem slist_reads (nodes : P → Prop) (cells : NullCells H P) (lists : H → List P)
    (holds : Holds slistLayout nodes cells lists) :
    SlistReads cells lists := by
  have firsts : ∀ h, cells.next (.head h) = some (lists h).head? := fun h =>
    slist_next nodes cells lists holds h [] (lists h) (.head h) rfl rfl
  refine ⟨firsts, fun h front q rest split => ?_, fun h => ?_, fun h rounds enough => ?_⟩
  · exact slist_next nodes cells lists holds h (front ++ [q]) rest (.elm q) (by simp [split]) (before_snoc h front q)
  · rw [slistEmpty, firsts]
    cases lists h <;> rfl
  · rw [slistForeach, firsts]
    exact null_foreach slistLayout rfl nodes cells lists holds h rounds enough

theorem slist_runs_as_lists (nodes : P → Prop) (cells : NullCells H P) (ops : List (QueueOp H P)) (final : H → List P)
    (fresh : Fresh slistLayout nodes cells) (run : AllowedRun slistKind nodes (fun _ => []) ops final) :
    ∃ enough after, (∀ rounds, enough ≤ rounds → runMacros slistKind rounds ops cells = some after) ∧
      SlistReads after final := by
  obtain ⟨enough, after, ran, holds⟩ :=
    runs_hold slistKind slist_implements nodes ops _ final cells run (holds_fresh slistLayout nodes cells fresh)
  exact ⟨enough, after, ran, slist_reads nodes after final holds⟩

theorem slist_runs_as_lists_two_heads :
    let ops : List (QueueOp Bool Nat) :=
      [.insertHead true 1, .insertHead true 2, .insertAfter true 2 3, .remove true 3,
        .removeHead true, .swap false true]
    let final := ops.foldl (fun lists op => op.apply lists) fun _ => []
    ∃ enough after, (∀ rounds, enough ≤ rounds → runMacros slistKind rounds ops twoHeads = some after) ∧
      SlistReads after final :=
  slist_runs_as_lists (fun _ => True) twoHeads _ _ (two_heads_fresh _)
    (.cons _ _ _ _ rfl (by decide) (.cons _ _ _ _ rfl (by decide) (.cons _ _ _ _ rfl (by decide)
      (.cons _ _ _ _ rfl (by decide) (.cons _ _ _ _ rfl (by decide) (.cons _ _ _ _ rfl (by decide) (.nil _)))))))

end AesdChar
