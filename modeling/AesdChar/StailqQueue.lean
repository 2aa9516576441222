import AesdChar.NullQueues

set_option autoImplicit false

namespace AesdChar

open LinkedRing

variable {H P : Type} [DecidableEq H] [DecidableEq P]

def stailqInit (cells : NullCells H P) (head : H) : Option (NullCells H P) := do
  let cells ← cells.storeNext (.head head) none
  cells.storePrev (.head head) (.head head)

def stailqInsertHead (cells : NullCells H P) (head : H) (elm : P) : Option (NullCells H P) := do
  let first ← cells.next (.head head)
  let cells ← cells.storeNext (.elm elm) first
  let cells ← if first = none then cells.storePrev (.head head) (.elm elm) else some cells
  cells.storeNext (.head head) (some elm)

def stailqInsertAfter (cells : NullCells H P) (head : H) (listelm elm : P) : Option (NullCells H P) := do
  let next ← cells.next (.elm listelm)
  let cells ← cells.storeNext (.elm elm) next
  let cells ← if next = none then cells.storePrev (.head head) (.elm elm) else some cells
  cells.storeNext (.elm listelm) (some elm)

def stailqInsertTail (cells : NullCells H P) (head : H) (elm : P) : Option (NullCells H P) := do
  let cells ← cells.storeNext (.elm elm) none
  let last ← cells.prev (.head head)
  let cells ← cells.storeNext last (some elm)
  cells.storePrev (.head head) (.elm elm)

def stailqConcat (cells : NullCells H P) (head1 head2 : H) : Option (NullCells H P) := do
  let first ← cells.next (.head head2)
  if first = none then some cells
  else do
    let last ← cells.prev (.head head1)
    let cells ← cells.storeNext last first
    let last ← cells.prev (.head head2)
    let cells ← cells.storePrev (.head head1) last
    stailqInit cells head2

def stailqRemoveHead (cells : NullCells H P) (head : H) : Option (NullCells H P) := do
  let first ← cells.next (.head head)
  let next ← nextOf cells first
  let cells ← cells.storeNext (.head head) next
  if next = none then cells.storePrev (.head head) (.head head) else some cells

def stailqRemoveHeadUntil (cells : NullCells H P) (head : H) (elm : P) : Option (NullCells H P) := do
  let next ← cells.next (.elm elm)
  let cells ← cells.storeNext (.head head) next
  if next = none then cells.storePrev (.head head) (.head head) else some cells

def stailqRemoveAfter (cells : NullCells H P) (head : H) (elm : P) : Option (NullCells H P) := do
  let next ← cells.next (.elm elm)
  let next ← nextOf cells next
  let cells ← cells.storeNext (.elm elm) next
  if next = none then cells.storePrev (.head head) (.elm elm) else some cells

def stailqRemove (rounds : Nat) (cells : NullCells H P) (head : H) (elm : P) : Option (NullCells H P) := do
  let first ← cells.next (.head head)
  if first = some elm then stailqRemoveHead cells head
  else do
    let curelm ← untilNext (fun curelm => cells.next (.elm curelm)) elm rounds first
    let next ← cells.next (.elm curelm)
    let next ← nextOf cells next
    let cells ← cells.storeNext (.elm curelm) next
    if next = none then cells.storePrev (.head head) (.elm curelm) else some cells

-- How STAILQ_SWAP leaves one of its heads.
def stailqSettle (cells : NullCells H P) (head : H) : Option (NullCells H P) := do
  let first ← cells.next (.head head)
  if first = none then cells.storePrev (.head head) (.head head) else some cells

def stailqSwap (cells : NullCells H P) (head1 head2 : H) : Option (NullCells H P) := do
  let swapFirst ← cells.next (.head head1)
  let swapLast ← cells.prev (.head head1)
  let first ← cells.next (.head head2)
  let cells ← cells.storeNext (.head head1) first
  let last ← cells.prev (.head head2)
  let cells ← cells.storePrev (.head head1) last
  let cells ← cells.storeNext (.head head2) swapFirst
  let cells ← cells.storePrev (.head head2) swapLast
  let cells ← stailqSettle cells head1
  stailqSettle cells head2

-- An element has its next field only.
def stailqLayout : QueueLayout H P (Option P) where
  kept
    | .head _ => true
    | .elm _ => false
  target := nullTarget

def stailqKind : QueueKind H P (Option P) where
  layout := stailqLayout
  code
    | .init head => some fun _ cells => stailqInit cells head
    | .insertHead head elm => some fun _ cells => stailqInsertHead cells head elm
    | .insertTail head elm => some fun _ cells => stailqInsertTail cells head elm
    | .insertAfter head listelm elm => some fun _ cells => stailqInsertAfter cells head listelm elm
    | .concat head1 head2 => some fun _ cells => stailqConcat cells head1 head2
    | .removeHead head => some fun _ cells => stailqRemoveHead cells head
    | .removeHeadUntil head elm => some fun _ cells => stailqRemoveHeadUntil cells head elm
    | .removeAfter head elm => some fun _ cells => stailqRemoveAfter cells head elm
    | .remove head elm => some fun rounds cells => stailqRemove rounds cells head elm
    | .swap head1 head2 => some fun _ cells => stailqSwap cells head1 head2
    | .insertBefore _ _ _ => none
    | .replace _ _ _ => none

@[simp] theorem stailq_set_back_head (cells : NullCells H P) (h : H) (x : Place H P) :
    cells.setBack stailqLayout (.head h) x = cells.setPrev (.head h) x := rfl

@[simp] theorem stailq_set_back_elm (cells : NullCells H P) (p : P) (x : Place H P) :
    cells.setBack stailqLayout (.elm p) x = cells := rfl

theorem stailq_settle (cells : NullCells H P) (h : H) (first : Option P) (read : cells.next (.head h) = some first)
    (has : (cells.prev (.head h)).isSome) :
    stailqSettle cells h = some (cells.setBack stailqLayout (nullTarget h first) (.head h)) := by
  cases first with
  | none => simp [stailqSettle, read, nullTarget, has]
  | some p => simp [stailqSettle, read, nullTarget]

section

variable (nodes : P → Prop) (cells : NullCells H P) (lists : H → List P) (holds : Holds stailqLayout nodes cells lists)

include holds

omit [DecidableEq H] [DecidableEq P] in
theorem stailq_next (h : H) (front rest : List P) (a : Place H P) (split : lists h = front ++ rest)
    (before : PlaceBefore h front a) :
    cells.next a = some rest.head? :=
  null_next stailqLayout rfl nodes cells lists holds h front rest a split before

omit [DecidableEq H] [DecidableEq P] in
theorem stailq_last (h : H) : ∃ a, PlaceBefore h (lists h) a ∧ cells.prev (.head h) = some a := by
  obtain ⟨a, before⟩ := place_before h (lists h)
  have joined := holds_joined stailqLayout nodes cells lists holds h (lists h) [] a (.head h) (by simp) before rfl
  exact ⟨a, before, joined.2 rfl⟩

-- The place before rest goes on behind the elements that are dropped.
theorem stailq_cut (h : H) (front old rest : List P) (a : Place H P) (split : lists h = front ++ old ++ rest)
    (before : PlaceBefore h front a) :
    ∃ after, ((cells.storeNext a rest.head?).bind fun cells =>
        if rest.head? = none then cells.storePrev (.head h) a else some cells) = some after ∧
      Holds stailqLayout nodes after (Function.update lists h (front ++ rest)) := by
  have next := stailq_next nodes cells lists holds h front (old ++ rest) a (by simp [split]) before
  obtain ⟨z, _, last⟩ := stailq_last nodes cells lists holds h
  refine ⟨_, ?_, holds_unlink stailqLayout nodes cells lists holds h front old rest a _ split before
    (null_behind h rest) rest.head? rfl⟩
  cases rest with
  | nil => simp [Cells.unlink, nullTarget, next, last]
  | cons p rest => simp [Cells.unlink, nullTarget, next]

theorem stailq_insert (h : H) (p : P) (front rest : List P) (a : Place H P) (split : lists h = front ++ rest)
    (before : PlaceBefore h front a) (spare : Spare nodes lists p) :
    ∃ after, ((cells.storeNext (.elm p) rest.head?).bind fun cells =>
        if rest.head? = none then (cells.storePrev (.head h) (.elm p)).bind fun cells => cells.storeNext a (some p)
        else cells.storeNext a (some p)) = some after ∧
      Holds stailqLayout nodes after (Function.update lists h (front ++ p :: rest)) := by
  have next := stailq_next nodes cells lists holds h front rest a split before
  obtain ⟨z, _, last⟩ := stailq_last nodes cells lists holds h
  have absent := spare.2 h
  rw [split] at absent
  have apart := before_apart h front a p (fun member => absent (by simp [member])) before
  have hasNext := holds.next p spare.1
  refine ⟨_, ?_, holds_link_in stailqLayout nodes cells lists holds h front [] rest a _ (by simp [split]) before
    (null_behind h rest)
    p (some p) rest.head? spare rfl rfl⟩
  cases rest with
  | nil => simp [Cells.linkIn, nullTarget, next, last, hasNext, apart]
  | cons q rest => simp [Cells.linkIn, nullTarget, next, hasNext, apart]

theorem stailq_init (h : H) :
    ∃ after, stailqInit cells h = some after ∧ Holds stailqLayout nodes after (Function.update lists h []) := by
  obtain ⟨after, ran, afterHolds⟩ := stailq_cut nodes cells lists holds h [] (lists h) [] (.head h) (by simp) rfl
  exact ⟨after, ran, afterHolds⟩

theorem stailq_insert_head (h : H) (p : P) (spare : Spare nodes lists p) :
    ∃ after, stailqInsertHead cells h p = some after ∧
      Holds stailqLayout nodes after (Function.update lists h (p :: lists h)) := by
  have first := stailq_next nodes cells lists holds h [] (lists h) (.head h) rfl rfl
  obtain ⟨after, ran, afterHolds⟩ := stailq_insert nodes cells lists holds h p [] (lists h) (.head h) rfl rfl spare
  refine ⟨after, ?_, afterHolds⟩
  rw [stailqInsertHead, first]
  exact ran

theorem stailq_insert_after (h : H) (q p : P) (front rest : List P) (split : lists h = front ++ q :: rest)
    (spare : Spare nodes lists p) :
    ∃ after, stailqInsertAfter cells h q p = some after ∧
      Holds stailqLayout nodes after (Function.update lists h (front ++ q :: p :: rest)) := by
  have whole : lists h = (front ++ [q]) ++ rest := by simp [split]
  have before := before_snoc h front q
  have next := stailq_next nodes cells lists holds h (front ++ [q]) rest (.elm q) whole before
  obtain ⟨after, ran, afterHolds⟩ :=
    stailq_insert nodes cells lists holds h p (front ++ [q]) rest (.elm q) whole before spare
  refine ⟨after, ?_, by simpa using afterHolds⟩
  rw [stailqInsertAfter, next]
  exact ran

theorem stailq_insert_tail (h : H) (p : P) (spare : Spare nodes lists p) :
    ∃ after, stailqInsertTail cells h p = some after ∧
      Holds stailqLayout nodes after (Function.update lists h (lists h ++ [p])) := by
  obtain ⟨a, before, last⟩ := stailq_last nodes cells lists holds h
  have next := stailq_next nodes cells lists holds h (lists h) [] a (by simp) before
  have apart := before_apart h (lists h) a p (spare.2 h) before
  have hasNext := holds.next p spare.1
  refine ⟨_, ?_, holds_link_in stailqLayout nodes cells lists holds h (lists h) [] [] a (.head h) (by simp) before
    rfl p (some p) none spare rfl rfl⟩
  simp [stailqInsertTail, Cells.linkIn, next, last, hasNext, apart]

theorem stailq_concat (h k : H) (other : h ≠ k) :
    ∃ after, stailqConcat cells h k = some after ∧
      Holds stailqLayout nodes after (Function.update (Function.update lists k []) h (lists h ++ lists k)) := by
  have first := stailq_next nodes cells lists holds k [] (lists k) (.head k) rfl rfl
  cases list : lists k with
  | nil =>
      rw [list] at first
      refine ⟨cells, by simp [stailqConcat, first], ?_⟩
      have same : Function.update (Function.update lists k []) h (lists h ++ []) = lists := by
        rw [List.append_nil, ← list, Function.update_eq_self, Function.update_eq_self]
      rw [same]
      exact holds
  | cons p rest =>
      obtain ⟨a, before, last1⟩ := stailq_last nodes cells lists holds h
      have nextA := stailq_next nodes cells lists holds h (lists h) [] a (by simp) before
      obtain ⟨y, lastPlace, last2⟩ := stailq_last nodes cells lists holds k
      obtain ⟨front, z, back⟩ : ∃ front z, lists k = front ++ [z] := by
        rcases List.eq_nil_or_concat' (lists k) with none | ⟨front, z, back⟩
        · rw [none] at list
          cases list
        · exact ⟨front, z, back⟩
      rw [back] at lastPlace
      obtain rfl : Place.elm z = y := Option.some.inj ((before_snoc k front z).symm.trans lastPlace)
      have aNotHead : a ≠ .head k := before_other h k (lists h) a other before
      rw [list] at first
      rw [← list]
      refine ⟨_, ?_, holds_append stailqLayout (null_ends_alike _) cells nodes lists holds h k other a p z
        (some p) none before (by simp [list]) (by simp [back]) first rfl⟩
      have headsApart : (Place.head k : Place H P) ≠ .head h := by simpa using Ne.symm other
      simp [stailqConcat, stailqInit, Cells.append, Cells.unlink, first, nextA, last1, last2, aNotHead.symm,
        set_next_comm _ _ _ _ _ aNotHead, set_prev_comm _ _ _ _ _ headsApart]

theorem stailq_remove_head (h : H) (p : P) (rest : List P) (split : lists h = p :: rest) :
    ∃ after, stailqRemoveHead cells h = some after ∧ Holds stailqLayout nodes after (Function.update lists h rest) := by
  have first := stailq_next nodes cells lists holds h [] (p :: rest) (.head h) split rfl
  have next := stailq_next nodes cells lists holds h [p] rest (.elm p) split rfl
  obtain ⟨after, ran, afterHolds⟩ := stailq_cut nodes cells lists holds h [] [p] rest (.head h) split rfl
  refine ⟨after, ?_, afterHolds⟩
  rw [← ran]
  simp only [stailqRemoveHead, nextOf, first, List.head?_cons, Option.bind_eq_bind, Option.bind_some, next]

theorem stailq_remove_head_until (h : H) (q : P) (front rest : List P) (split : lists h = front ++ q :: rest) :
    ∃ after, stailqRemoveHeadUntil cells h q = some after ∧
      Holds stailqLayout nodes after (Function.update lists h rest) := by
  have next := stailq_next nodes cells lists holds h (front ++ [q]) rest (.elm q) (by simp [split])
    (before_snoc h front q)
  obtain ⟨after, ran, afterHolds⟩ :=
    stailq_cut nodes cells lists holds h [] (front ++ [q]) rest (.head h) (by simp [split]) rfl
  refine ⟨after, ?_, afterHolds⟩
  rw [stailqRemoveHeadUntil, next]
  exact ran

theorem stailq_remove_after (h : H) (q p : P) (front rest : List P) (split : lists h = front ++ q :: p :: rest) :
    ∃ after, stailqRemoveAfter cells h q = some after ∧
      Holds stailqLayout nodes after (Function.update lists h (front ++ q :: rest)) := by
  have before := before_snoc h front q
  have first := stailq_next nodes cells lists holds h (front ++ [q]) (p :: rest) (.elm q) (by simp [split]) before
  have next := stailq_next nodes cells lists holds h (front ++ [q, p]) rest (.elm p) (by simp [split])
    (by simpa using before_snoc h (front ++ [q]) p)
  obtain ⟨after, ran, afterHolds⟩ :=
    stailq_cut nodes cells lists holds h (front ++ [q]) [p] rest (.elm q) (by simp [split]) before
  refine ⟨after, ?_, by simpa using afterHolds⟩
  rw [← ran]
  simp only [stailqRemoveAfter, nextOf, first, List.head?_cons, Option.bind_eq_bind, Option.bind_some, next]

theorem stailq_remove (h : H) (q : P) (front rest : List P) (split : lists h = front ++ q :: rest) :
    ∃ after, (∀ rounds, (lists h).length ≤ rounds → stailqRemove rounds cells h q = some after) ∧
      Holds stailqLayout nodes after (Function.update lists h (front ++ rest)) := by
  have first := stailq_next nodes cells lists holds h [] (lists h) (.head h) rfl rfl
  rcases List.eq_nil_or_concat' front with rfl | ⟨earlier, z, rfl⟩
  · obtain ⟨after, ran, afterHolds⟩ := stailq_remove_head nodes cells lists holds h q rest split
    refine ⟨after, fun rounds _ => ?_, afterHolds⟩
    rw [stailqRemove, first, split]
    exact (if_pos rfl).trans ran
  · have whole : lists h = earlier ++ z :: q :: rest := by simp [split]
    obtain ⟨after, ran, afterHolds⟩ := stailq_remove_after nodes cells lists holds h z q earlier rest whole
    refine ⟨after, fun rounds enough => ?_, by simpa using afterHolds⟩
    have found := null_until stailqLayout rfl nodes cells lists holds h earlier rest z q whole rounds enough
    have notFirst := null_not_first stailqLayout nodes cells lists holds h earlier rest z q whole
    simp only [stailqRemove, first, Option.bind_eq_bind, Option.bind_some, if_neg notFirst, found]
    exact ran

theorem stailq_swap (h k : H) (other : h ≠ k) :
    ∃ after, stailqSwap cells h k = some after ∧
      Holds stailqLayout nodes after (Function.update (Function.update lists h (lists k)) k (lists h)) := by
  have first1 := stailq_next nodes cells lists holds h [] (lists h) (.head h) rfl rfl
  have first2 := stailq_next nodes cells lists holds k [] (lists k) (.head k) rfl rfl
  obtain ⟨a1, before1, last1⟩ := stailq_last nodes cells lists holds h
  obtain ⟨a2, before2, last2⟩ := stailq_last nodes cells lists holds k
  refine ⟨cells.exchange stailqLayout h k (lists h).head? (lists k).head? a1 a2, ?_,
    holds_exchange stailqLayout (null_ends_alike _) cells nodes lists holds h k other _ _ a1 a2 first1
      first2 before1 before2⟩
  -- The heads before the two settle.
  let swapped :=
    (((cells.setNext (.head h) (lists k).head?).setNext (.head k) (lists h).head?).setPrev (.head h) a2).setPrev
    (.head k) a1
  have reached : stailqSwap cells h k = (stailqSettle swapped h).bind fun settled => stailqSettle settled k := by
    simp [stailqSwap, swapped, first1, first2, last1, last2, Ne.symm other]
  rw [reached, stailq_settle swapped h (lists k).head? (by simp [swapped, other]) (by simp [swapped, other]),
    Option.bind_some,
    stailq_settle _ k (lists h).head? (by simp [swapped]) ?_]
  · rfl
  · exact (keeps_set_back stailqLayout swapped swapped _ _ (keeps_all swapped)).prev _ (by simp [swapped])

end

theorem stailq_implements : Implements (stailqKind : QueueKind H P (Option P)) := by
  apply implements_splits
  intro nodes cells lists next op run has splits holds
  cases splits with
  | init h =>
      cases has
      exact any_rounds _ nodes _ _ _ (stailq_init nodes cells lists holds h)
  | insertHead h p spare =>
      cases has
      exact any_rounds _ nodes _ _ _ (stailq_insert_head nodes cells lists holds h p spare)
  | insertTail h p spare =>
      cases has
      exact any_rounds _ nodes _ _ _ (stailq_insert_tail nodes cells lists holds h p spare)
  | insertAfter h q p front rest split spare =>
      cases has
      exact any_rounds _ nodes _ _ _ (stailq_insert_after nodes cells lists holds h q p front rest split spare)
  | concat h k other =>
      cases has
      exact any_rounds _ nodes _ _ _ (stailq_concat nodes cells lists holds h k other)
  | removeHead h p rest split =>
      cases has
      exact any_rounds _ nodes _ _ _ (stailq_remove_head nodes cells lists holds h p rest split)
  | removeHeadUntil h q front rest split =>
      cases has
      exact any_rounds _ nodes _ _ _ (stailq_remove_head_until nodes cells lists holds h q front rest split)
  | removeAfter h q p front rest split =>
      cases has
      exact any_rounds _ nodes _ _ _ (stailq_remove_after nodes cells lists holds h q p front rest split)
  | remove h q front rest split =>
      cases has
      exact stailq_remove nodes cells lists holds h q front rest split
  | swap h k other =>
      cases has
      exact any_rounds _ nodes _ _ _ (stailq_swap nodes cells lists holds h k other)
  | insertBefore h q p front rest split spare => cases has
  | replace h q p front rest split spare => cases has

def stailqFirst (cells : NullCells H P) (head : H) : Option (Option P) := cells.next (.head head)

def stailqEmpty (cells : NullCells H P) (head : H) : Option Bool := (cells.next (.head head)).map Option.isNone

def stailqLast (cells : NullCells H P) (head : H) : Option (Option P) := do
  let empty ← stailqEmpty cells head
  if empty then some none
  else do
    let last ← cells.prev (.head head)
    (containerOf last).map some

def stailqNext (cells : NullCells H P) (elm : P) : Option (Option P) := cells.next (.elm elm)

def stailqForeach (rounds : Nat) (cells : NullCells H P) (head : H) : Option (List P) := do
  let first ← cells.next (.head head)
  foreachFrom (fun var => cells.next (.elm var)) rounds first

structure StailqReads (cells : NullCells H P) (lists : H → List P) : Prop where
  first : ∀ h, stailqFirst cells h = some (lists h).head?
  last : ∀ h, stailqLast cells h = some (lists h).getLast?
  next : ∀ h front q rest, lists h = front ++ q :: rest → stailqNext cells q = some rest.head?
  empty : ∀ h, stailqEmpty cells h = some (lists h).isEmpty
  foreach : ∀ h rounds, (lists h).length ≤ rounds → stailqForeach rounds cells h = some (lists h)

omit [DecidableEq H] [DecidableEq P] in
theorem stailq_reads (nodes : P → Prop) (cells : NullCells H P) (lists : H → List P)
    (holds : Holds stailqLayout nodes cells lists) :
    StailqReads cells lists := by
  have firsts : ∀ h, cells.next (.head h) = some (lists h).head? := fun h =>
    stailq_next nodes cells lists holds h [] (lists h) (.head h) rfl rfl
  have empties : ∀ h, stailqEmpty cells h = some (lists h).isEmpty := by
    intro h
    rw [stailqEmpty, firsts]
    cases lists h <;> rfl
  refine ⟨firsts, fun h => ?_, fun h front q rest split => ?_, empties, fun h rounds enough => ?_⟩
  · obtain ⟨a, before, back⟩ := stailq_last nodes cells lists holds h
    rw [stailqLast, empties, back]
    rcases List.eq_nil_or_concat' (lists h) with none | ⟨front, z, split⟩
    · simp [none]
    · rw [split] at before ⊢
      obtain rfl : Place.elm z = a := Option.some.inj ((before_snoc h front z).symm.trans before)
      simp [containerOf]
  · exact stailq_next nodes cells lists holds h (front ++ [q]) rest (.elm q) (by simp [split]) (before_snoc h front q)
  · rw [stailqForeach, firsts]
    exact null_foreach stailqLayout rfl nodes cells lists holds h rounds enough

theorem stailq_runs_as_lists (nodes : P → Prop) (cells : NullCells H P) (ops : List (QueueOp H P)) (final : H → List P)
    (fresh : Fresh stailqLayout nodes cells) (run : AllowedRun stailqKind nodes (fun _ => []) ops final) :
    ∃ enough after, (∀ rounds, enough ≤ rounds → runMacros stailqKind rounds ops cells = some after) ∧
      StailqReads after final := by
  obtain ⟨enough, after, ran, holds⟩ :=
    runs_hold stailqKind stailq_implements nodes ops _ final cells run (holds_fresh stailqLayout nodes cells fresh)
  exact ⟨enough, after, ran, stailq_reads nodes after final holds⟩

theorem stailq_runs_as_lists_two_heads :
    let ops : List (QueueOp Bool Nat) :=
      [.insertTail true 1, .insertHead true 2, .insertAfter true 2 3, .concat false true, .remove false 3,
        .removeHeadUntil false 2]
    let final := ops.foldl (fun lists op => op.apply lists) fun _ => []
    ∃ enough after, (∀ rounds, enough ≤ rounds → runMacros stailqKind rounds ops twoHeads = some after) ∧
      StailqReads after final :=
  stailq_runs_as_lists (fun _ => True) twoHeads _ _ (two_heads_fresh _)
    (.cons _ _ _ _ rfl (by decide) (.cons _ _ _ _ rfl (by decide) (.cons _ _ _ _ rfl (by decide)
      (.cons _ _ _ _ rfl (by decide) (.cons _ _ _ _ rfl (by decide) (.cons _ _ _ _ rfl (by decide) (.nil _)))))))

end AesdChar
